import Mathlib.Tactic.Common
import Tensorpipe.RingBufferInvariantProofs
import Tensorpipe.RingOperationProofs

/-! # Framed streams over a ring buffer

    `access_step` says what one step of an access to the ring does, seen from the
    transaction: it goes on, it fails for lack of data or room, or it is done with the
    next `k` bytes.

    The two sides share one invariant.  The writer has put a prefix of all the frames
    on the ring (`put`), and the data shows it from the reader's marker on; the reader
    has taken a prefix of them too, which ends within the frame of its front
    operation. -/

namespace TpRing

open TpCursorRing

-- ── One step of an access ────────────────────────────────────────────────────

/-- The access that a call makes. -/
def Action.access? : Action → Option (Use × Bool × UInt64)
  | .accessContiguousInTx allowPartial size => some (.access, allowPartial, size)
  | .incMarkerInTx size => some (.access, false, size)
  | .readInTx allowPartial size => some (.read, allowPartial, size)
  | .writeInTx allowPartial buffer =>
      some (.write buffer, allowPartial, UInt64.ofNat buffer.length)
  | _ => none

/-- The bytes granted to a copy that is still to be made. -/
def RingBufferRole.uncopied (role : RingBufferRole) : Nat :=
  match role.call with
  | .copying _ buffers => (addresses buffers).length
  | _ => 0

/-- An instance within this access, or about to make it. -/
def RingBufferRole.Accessing (role : RingBufferRole) (use : Use) (allowPartial : Bool)
    (size : UInt64) : Prop :=
  match role.call with
  | .idle => True
  | .tailRead use' allowPartial' size' _ =>
      use' = use ∧ allowPartial' = allowPartial ∧ size' = size
  | .copying use' buffers =>
      use' = use ∧ use' ≠ .access ∧ (addresses buffers).length ≤ size.toNat
        ∧ (allowPartial = false → (addresses buffers).length = size.toNat)
  | .ending => False

/-- The data after an access to `k` cells from `p` on. -/
def Use.effect (use : Use) (cap : Nat) (data : Nat → UInt8) (p k : Nat) : Nat → UInt8 :=
  match use with
  | .write buffer => store data (cells cap p k) (buffer.take k)
  | _ => data

/-- What one step of an access can do to the transaction and to the data: `base` bytes
    were dealt with before this access. -/
inductive AccessStep (use : Use) (allowPartial : Bool) (size : UInt64) (cap p base : Nat)
    (data data' : Nat → UInt8) (role' : RingBufferRole) : Prop where
  | busy (hcall : role'.call ≠ .idle) (hacc : role'.Accessing use allowPartial size)
      (htx : role'.txSize.toNat = base + role'.uncopied) (hdata : data' = data)
  | failed (hcall : role'.call = .idle) (hpart : allowPartial = false)
      (hresult : role'.result = .error .ENODATA) (htx : role'.txSize.toNat = base)
      (hdata : data' = data) (hsome : size ≠ 0)
  | done (k : Nat) (hcall : role'.call = .idle) (hle : k ≤ size.toNat)
      (hall : allowPartial = false → k = size.toNat)
      (hresult : ∃ m, role'.result = .ok m ∧ (use ≠ .access → m = k))
      (htx : role'.txSize.toNat = base + k) (hdata : data' = use.effect cap data (p + base) k)
      (hout : use = .read → role'.out.take k = (cells cap (p + base) k).map data)

section Access

variable {n : Nat} {ι : Type} [DecidableEq ι] {roleIdx : ι → Fin (n + 2)} {cap : Nat}
  {s s' : RingBuffer (n + 2) ι} {h : History (n + 2)} {i : ι}

/-- Where nothing is moved, nothing changes. -/
theorem effect_zero (use : Use) (data : Nat → UInt8) (p : Nat) :
    use.effect cap data p 0 = data := by
  cases use <;> rfl

/-- The start of an access. -/
theorem readTail_step {use : Use} {allowPartial : Bool} {size : UInt64}
    (hopen : (s.roles i).inTx = true) :
    AccessStep use allowPartial size cap (h.pos (roleIdx i)) (s.roles i).txSize.toNat s.data
        (s.readTail roleIdx use allowPartial size i).data
        ((s.readTail roleIdx use allowPartial size i).roles i)
      ∧ ((s.readTail roleIdx use allowPartial size i).roles i).inTx = true
      ∧ ∀ j ≠ i, (s.readTail roleIdx use allowPartial size i).roles j = s.roles j := by
  rw [RingBuffer.readTail, if_neg (by rw [hopen]; simp)]
  by_cases hsize : size = 0
  · rw [if_pos hsize, RingBuffer.setRole_self]
    refine ⟨.done 0 rfl (Nat.zero_le _) ?_ ⟨0, rfl, fun _ => rfl⟩ rfl (effect_zero _ _ _).symm
      (fun _ => rfl), hopen, fun j hj => RingBuffer.setRole_ne _ _ hj⟩
    intro _
    rw [hsize]
    rfl
  · rw [if_neg hsize, RingBuffer.setRole_self]
    exact ⟨.busy (by simp) ⟨rfl, rfl, rfl⟩ rfl rfl, hopen,
      fun j hj => RingBuffer.setRole_ne _ _ hj⟩

/-- The grant: nothing, or the next bytes. -/
theorem grant_step (hinv : RingInv roleIdx cap s h) {use : Use} {allowPartial : Bool}
    {size tail : UInt64} (hopen : (s.roles i).inTx = true)
    (hcall : (s.roles i).call = .tailRead use allowPartial size tail) :
    AccessStep use allowPartial size cap (h.pos (roleIdx i)) (s.roles i).txSize.toNat s.data
        (s.grant roleIdx use allowPartial size tail i).data
        ((s.grant roleIdx use allowPartial size tail i).roles i)
      ∧ ((s.grant roleIdx use allowPartial size tail i).roles i).inTx = true
      ∧ ∀ j ≠ i, (s.grant roleIdx use allowPartial size tail i).roles j = s.roles j := by
  have hrole := hinv.roles i
  obtain ⟨htail, hsize, -⟩ := hrole.tail use allowPartial size tail hcall
  have hsmall := hinv.sized.small
  have hturn : limit cap h.pos (roleIdx i) ≤ h.pos (roleIdx i) + cap :=
    Nat.le_trans (hinv.order.limit_turn _)
      (Nat.add_le_add_right (hinv.order.mono (Fin.zero_le _)) cap)
  have hwithin := hrole.within
  rw [RingBuffer.grant]
  dsimp only
  rw [htail, hinv.markers, hinv.readHead]
  rcases accessContiguous_spec hinv.sized allowPartial hsize hwithin hturn with
    ⟨heq, hpart, -⟩ | ⟨buffers, heq, haddr, hpart⟩
  · rw [heq]
    dsimp only
    rw [RingBuffer.setRole_self]
    exact ⟨.failed rfl hpart rfl rfl rfl hsize, hopen, fun j hj => RingBuffer.setRole_ne _ _ hj⟩
  · rw [heq]
    dsimp only
    generalize hk : min size.toNat (limit cap h.pos (roleIdx i) - h.pos (roleIdx i)
      - (s.roles i).txSize.toNat) = k at haddr
    have hle : k ≤ size.toNat := by omega
    have hall : allowPartial = false → k = size.toNat := by
      intro hno
      rcases hpart with hyes | hyes
      · exact absurd (hno.symm.trans hyes) (by simp)
      · omega
    have htx : (UInt32.ofNat ((s.roles i).txSize.toNat + k)).toNat
        = (s.roles i).txSize.toNat + k := toNat_ofNat_small32 (by omega)
    have hlen : (addresses buffers).length = k := by rw [haddr, cells_length]
    by_cases hdone : use = .access ∨ buffers = []
    · rw [if_pos hdone, RingBuffer.setRole_self]
      -- either nothing is to be copied, or nothing was granted
      have hnone : use ≠ .access → k = 0 := by
        intro huse
        rcases hdone with hno | hnil
        · exact absurd hno huse
        · rw [← hlen, hnil]
          rfl
      refine ⟨.done k rfl hle hall ⟨buffers.length, rfl, ?_⟩ htx ?_ ?_, hopen,
        fun j hj => RingBuffer.setRole_ne _ _ hj⟩
      · intro huse
        rcases hdone with hno | hnil
        · exact absurd hno huse
        · rw [hnone huse, hnil]
          rfl
      · cases use with
        | write buffer =>
            rw [hnone (by simp), effect_zero]
            rfl
        | _ => rfl
      · intro huse
        rw [hnone (by rw [huse]; simp)]
        rfl
    · rw [if_neg hdone, RingBuffer.setRole_self]
      refine ⟨.busy (by simp) ⟨rfl, fun huse => hdone (Or.inl huse), ?_, ?_⟩ ?_ rfl, hopen,
        fun j hj => RingBuffer.setRole_ne _ _ hj⟩
      · rw [hlen]
        exact hle
      · intro hno
        rw [hlen]
        exact hall hno
      · show _ = _ + (addresses buffers).length
        rw [hlen]
        exact htx

/-- The copy. -/
theorem copy_step (hinv : RingInv roleIdx cap s h) {use : Use} {allowPartial : Bool}
    {size : UInt64} {buffers : List Buffer} {base : Nat} (hopen : (s.roles i).inTx = true)
    (hcall : (s.roles i).call = .copying use buffers)
    (hacc : (s.roles i).Accessing use allowPartial size)
    (hbase : (s.roles i).txSize.toNat = base + (s.roles i).uncopied) :
    AccessStep use allowPartial size cap (h.pos (roleIdx i)) base s.data
        (s.copy use buffers i).data ((s.copy use buffers i).roles i)
      ∧ ((s.copy use buffers i).roles i).inTx = true
      ∧ ∀ j ≠ i, (s.copy use buffers i).roles j = s.roles j := by
  obtain ⟨offset, hoffset, haddr, -⟩ := (hinv.roles i).copying use buffers hcall
  simp only [RingBufferRole.Accessing, hcall] at hacc
  simp only [RingBufferRole.uncopied, hcall] at hbase
  obtain ⟨-, huse, hle, hall⟩ := hacc
  generalize hk : (addresses buffers).length = k at *
  obtain rfl : offset = base := by omega
  cases use with
  | access => exact absurd rfl huse
  | read =>
      refine ⟨.done k ?_ hle hall ⟨k, ?_, fun _ => rfl⟩ ?_ rfl ?_, ?_, ?_⟩
      · rw [RingBuffer.copy, RingBuffer.setRole_self]
        rfl
      · rw [RingBuffer.copy, RingBuffer.setRole_self, hk]
        rfl
      · rw [RingBuffer.copy, RingBuffer.setRole_self]
        exact hbase
      · intro _
        rw [RingBuffer.copy, RingBuffer.setRole_self]
        show ((addresses buffers).map s.data).take k = _
        rw [haddr, List.take_of_length_le]
        rw [List.length_map, cells_length]
      · rw [RingBuffer.copy, RingBuffer.setRole_self]
        exact hopen
      · intro j hj
        exact RingBuffer.setRole_ne _ _ hj
  | write buffer =>
      refine ⟨.done k ?_ hle hall ⟨k, ?_, fun _ => rfl⟩ ?_ ?_ (by simp), ?_, ?_⟩
      · rw [RingBuffer.copy, RingBuffer.setRole_self]
        rfl
      · rw [RingBuffer.copy, RingBuffer.setRole_self, hk]
        rfl
      · rw [RingBuffer.copy, RingBuffer.setRole_self]
        exact hbase
      · show store s.data (addresses buffers) (buffer.take (addresses buffers).length) = _
        rw [hk, haddr]
        rfl
      · rw [RingBuffer.copy, RingBuffer.setRole_self]
        exact hopen
      · intro j hj
        exact RingBuffer.setRole_ne _ _ hj

/-- **One step of an access.** -/
theorem access_step (hinv : RingInv roleIdx cap s h) {action : Action} {use : Use}
    {allowPartial : Bool} {size : UInt64} {base : Nat}
    (haction : action.access? = some (use, allowPartial, size))
    (hopen : (s.roles i).inTx = true) (hacc : (s.roles i).Accessing use allowPartial size)
    (hbase : (s.roles i).txSize.toNat = base + (s.roles i).uncopied)
    (hstep : s.step roleIdx (if (s.roles i).call = .idle then action else .resume) i
      = some s') :
    AccessStep use allowPartial size cap (h.pos (roleIdx i)) base s.data s'.data (s'.roles i)
      ∧ (s'.roles i).inTx = true ∧ ∀ j ≠ i, s'.roles j = s.roles j := by
  cases hcall : (s.roles i).call with
  | idle =>
      have htail : s' = s.readTail roleIdx use allowPartial size i := by
        rw [if_pos hcall] at hstep
        cases action with
        | accessContiguousInTx allowPartial size =>
            cases haction
            unfold RingBuffer.step at hstep
            simp only [hcall, Option.some.injEq] at hstep
            exact hstep.symm
        | incMarkerInTx size =>
            cases haction
            unfold RingBuffer.step at hstep
            simp only [hcall, Option.some.injEq] at hstep
            exact hstep.symm
        | readInTx allowPartial size =>
            cases haction
            unfold RingBuffer.step at hstep
            simp only [hcall, Option.some.injEq] at hstep
            exact hstep.symm
        | writeInTx allowPartial buffer =>
            cases haction
            unfold RingBuffer.step at hstep
            simp only [hcall, Option.some.injEq] at hstep
            exact hstep.symm
        | _ => cases haction
      have hzero : (s.roles i).txSize.toNat = base := by
        simp only [RingBufferRole.uncopied, hcall] at hbase
        exact hbase
      rw [htail, ← hzero]
      exact readTail_step hopen
  | tailRead use' allowPartial' size' tail =>
      rw [if_neg (by rw [hcall]; simp)] at hstep
      unfold RingBuffer.step at hstep
      simp only [hcall, Option.some.injEq] at hstep
      subst hstep
      simp only [RingBufferRole.Accessing, hcall] at hacc
      obtain ⟨rfl, rfl, rfl⟩ := hacc
      have hzero : (s.roles i).txSize.toNat = base := by
        simp only [RingBufferRole.uncopied, hcall] at hbase
        exact hbase
      rw [← hzero]
      exact grant_step hinv hopen hcall
  | copying use' buffers =>
      rw [if_neg (by rw [hcall]; simp)] at hstep
      unfold RingBuffer.step at hstep
      simp only [hcall, Option.some.injEq] at hstep
      subst hstep
      have huse : use' = use := by
        simp only [RingBufferRole.Accessing, hcall] at hacc
        exact hacc.1
      subst huse
      exact copy_step hinv hopen hcall hacc hbase
  | ending =>
      simp only [RingBufferRole.Accessing, hcall] at hacc

end Access

-- ── Transactions of the only instance of a role ──────────────────────────────

section Transactions

variable {n : Nat} {cap : Nat} {s s' : RingBuffer (n + 2) (Fin (n + 2))} {h : History (n + 2)}
  {i : Fin (n + 2)}

/-- Nobody else can have taken the flag. -/
theorem start_step (hinv : RingInv id cap s h) (hclosed : (s.roles i).inTx = false)
    (hcall : (s.roles i).call = .idle) (hstep : s.step id .startTx i = some s') :
    s'.roles i = { (s.roles i).return (.ok 0) with inTx := true } ∧ s'.data = s.data
      ∧ ∀ j ≠ i, s'.roles j = s.roles j := by
  have hfree : s.header.inTx i = false := by
    by_contra hno
    obtain ⟨j, hj, hholds⟩ := hinv.owner i (by simpa using hno)
    obtain rfl : j = i := hj
    rcases hholds with hin | hend
    · exact absurd (hin.symm.trans hclosed) (by simp)
    · exact absurd (hend.symm.trans hcall) (by simp)
  unfold RingBuffer.step at hstep
  simp only [hcall, Option.some.injEq] at hstep
  subst hstep
  rw [RingBuffer.startTx, if_neg (by rw [hclosed]; simp)]
  dsimp only [RingBufferHeader.beginTransaction, id]
  rw [hfree, if_neg (by simp)]
  exact ⟨RingBuffer.setRole_self _ _ _, rfl, fun j hj => RingBuffer.setRole_ne _ _ hj⟩

/-- The first half of a commit moves the marker. -/
theorem commit_step (hopen : (s.roles i).inTx = true) (hcall : (s.roles i).call = .idle)
    (hstep : s.step id .commitTx i = some s') :
    s'.roles i
        = { s.roles i with txSize := 0, inTx := false, granted := [], call := .ending }
      ∧ s'.data = s.data ∧ ∀ j ≠ i, s'.roles j = s.roles j := by
  unfold RingBuffer.step at hstep
  simp only [hcall, Option.some.injEq] at hstep
  subst hstep
  rw [RingBuffer.commitTx, if_neg (by rw [hopen]; simp)]
  exact ⟨RingBuffer.setRole_self _ _ _, rfl, fun j hj => RingBuffer.setRole_ne _ _ hj⟩

/-- The second half clears the flag. -/
theorem ending_step (hcall : (s.roles i).call = .ending)
    (hstep : s.step id .resume i = some s') :
    s'.roles i = (s.roles i).return (.ok 0) ∧ s'.data = s.data
      ∧ ∀ j ≠ i, s'.roles j = s.roles j := by
  unfold RingBuffer.step at hstep
  simp only [hcall, Option.some.injEq] at hstep
  subst hstep
  exact ⟨RingBuffer.setRole_self _ _ _, rfl, fun j hj => RingBuffer.setRole_ne _ _ hj⟩

/-- The user writes one byte. -/
theorem poke_step (hinv : RingInv id cap s h) {offset : Nat} {b : UInt8}
    (hcall : (s.roles i).call = .idle) (hstep : s.step id (.poke offset b) i = some s') :
    s' = { s with data := store s.data (cells cap (h.pos i + offset) 1) [b] }
      ∧ offset < (s.roles i).txSize.toNat := by
  unfold RingBuffer.step at hstep
  simp only [hcall, RingBuffer.poke] at hstep
  by_cases hin : (s.roles i).inTx = false
  · rw [if_pos hin] at hstep
    exact absurd hstep (by simp)
  · rw [if_neg hin, (hinv.roles i).granted] at hstep
    by_cases hlt : offset < (s.roles i).txSize.toNat
    · rw [cells_getElem? hlt] at hstep
      exact ⟨(Option.some.inj hstep).symm, hlt⟩
    · rw [List.getElem?_eq_none (by rw [cells_length]; omega)] at hstep
      exact absurd hstep (by simp)

/-- Writing data moves no position. -/
theorem write_pos (h : History (n + 2)) (r : Fin (n + 2)) (offset : Nat) (bytes : List UInt8) :
    (h.write r offset bytes).pos = h.pos := by
  rw [History.write]
  by_cases hr : r.val + 1 = n + 2
  · rw [if_pos hr]
  · rw [if_neg hr]

/-- Only a commit moves a cursor. -/
theorem track_pos {action : Action} (hno : action ≠ .commitTx) :
    (s.track id action i h).pos = h.pos := by
  unfold RingBuffer.track
  dsimp only
  split
  · exact absurd rfl hno
  · exact write_pos _ _ _ _
  · exact write_pos _ _ _ _
  · rfl

/-- A commit moves the position by what the transaction holds. -/
theorem track_commit (hinv : RingInv id cap s h) (hopen : (s.roles i).inTx = true)
    (hcall : (s.roles i).call = .idle) :
    (s.track id .commitTx i h).pos
      = Function.update h.pos i (h.pos i + (s.roles i).txSize.toNat) := by
  unfold RingBuffer.track
  simp only [hcall]
  rw [if_pos hopen, (hinv.roles i).granted]
  show Function.update h.pos i (h.pos i + (cells cap _ _).length) = _
  rw [cells_length]

end Transactions

-- ── Frames ───────────────────────────────────────────────────────────────────

section Frames

variable {α : Type} (holder : AbstractNopHolder α)

/-- The bytes of what is written. -/
def Content.bytes : Content α → List UInt8
  | .buffer bytes => bytes
  | .object a => (holder.write a (holder.getSize a)).1

/-- A content on the wire: its length, and its bytes. -/
def Content.frame (c : Content α) : List UInt8 :=
  lengthBytes (UInt32.ofNat (c.bytes holder).length) ++ c.bytes holder

/-- The frames of several writes, one after the other. -/
def frames (contents : List (Content α)) : List UInt8 :=
  contents.flatMap (Content.frame holder)

/-- An object that libnop writes in exactly `getSize` bytes, and parses back from
    them. -/
structure AbstractNopHolder.Exact (a : α) : Prop where
  size : (holder.write a (holder.getSize a)).1.length = holder.getSize a
  written : (holder.write a (holder.getSize a)).2 = .None
  parsed : ∀ b, holder.read (holder.write a (holder.getSize a)).1 b = (.None, a)

/-- What may be written on a ring of `cap` bytes: a buffer whose length fits the
    header, or an object whose encoding fits the ring. -/
def Content.Sendable (cap : Nat) : Content α → Prop
  | .buffer bytes => bytes.length < 2 ^ 32
  | .object a => holder.getSize a ≤ cap ∧ holder.Exact a

/-- A read of the kind of a write. -/
def Target.Fits : Target α → Content α → Prop
  | .ptr len, .buffer bytes => len = bytes.length
  | .auto, .buffer _ => True
  | .nopObject _, .object _ => True
  | _, _ => False

end Frames

-- ── The invariant of the two sides ───────────────────────────────────────────

section Stream

variable {α : Type} (holder : AbstractNopHolder α)

/-- A role between two transactions. -/
def RingBufferRole.Closed (role : RingBufferRole) : Prop :=
  role.inTx = false ∧ role.call = .idle

/-- A role before its commit, or within it. -/
def RingBufferRole.Committing (role : RingBufferRole) : Prop :=
  role.inTx = true ∧ role.call = .idle ∨ role.call = .ending

/-- What is still to be put on the ring of the front operation. -/
def RingbufferWriteOperation.left (op : RingbufferWriteOperation α) (c : Content α) :
    Point → List UInt8
  | .fill _ bytes _ => bytes
  | _ => if op.mode = .WRITE_LENGTH then c.frame holder
      else (c.bytes holder).drop op.bytesWritten

/-- How far an operation is with a content, whatever the point. -/
structure RingbufferWriteOperation.Writing (op : RingbufferWriteOperation α) (c : Content α) :
    Prop where
  same : op = { RingbufferWriteOperation.make holder c with
    mode := op.mode, bytesWritten := op.bytesWritten }
  within : op.bytesWritten ≤ op.len
  whole : op.nopObject.isSome = true → op.bytesWritten = 0 ∨ op.bytesWritten = op.len
  fresh : op.mode = .WRITE_LENGTH → op.bytesWritten = 0

/-- The writer at each point. -/
def WritePhase (op : RingbufferWriteOperation α) (role : RingBufferRole) : Point → Prop
  | .start => role.Closed ∧ op.completed = false
  | .length =>
      role.inTx = true ∧ op.mode = .WRITE_LENGTH
        ∧ role.Accessing (.write (lengthBytes (UInt32.ofNat op.len))) false 4
  | .payload =>
      role.inTx = true ∧ op.mode = .WRITE_PAYLOAD
        ∧ (op.nopObject.isSome = true → op.bytesWritten = 0
          ∧ role.Accessing .access false (UInt64.ofNat op.len))
        ∧ (op.nopObject = none → role.Accessing (.write (op.ptr.drop op.bytesWritten)) true
          (UInt64.ofNat (op.len - op.bytesWritten)))
  | .fill offset bytes status =>
      role.inTx = true ∧ role.call = .idle ∧ op.mode = .WRITE_PAYLOAD
        ∧ op.nopObject.isSome = true ∧ op.bytesWritten = 0 ∧ status = .None
        ∧ offset + bytes.length = role.txSize.toNat
  | .commit => role.Committing
  | _ => False

/-- What the writer was granted and has still to fill. -/
def Point.unfilled : Point → Nat
  | .fill _ bytes _ => bytes.length
  | _ => 0

/-- The writer has put a prefix of the frames on the ring. -/
inductive WriterInv (writes : List (Content α)) (w : Side α (RingbufferWriteOperation α))
    (role : RingBufferRole) (pos : Nat) (put : List UInt8) : Prop where
  | finished (hops : w.ops = []) (hpoint : w.point = .start) (hdone : w.done = writes)
      (hclosed : role.Closed) (hput : put = frames holder writes) (hpos : pos = put.length)
  | front (c : Content α) (rest : List (Content α)) (op : RingbufferWriteOperation α)
      (hops : w.ops = op :: rest.map (.make holder)) (hwrites : writes = w.done ++ c :: rest)
      (hop : op.Writing holder c) (hphase : WritePhase op role w.point)
      (hput : put ++ (op.left holder c w.point ++ frames holder rest) = frames holder writes)
      (hpos : pos + role.txSize.toNat = put.length + role.uncopied + w.point.unfilled)

/-- How far a read operation is with the payload of a content. -/
structure RingbufferReadOperation.Reading (op : RingbufferReadOperation α) (c : Content α) :
    Prop where
  mode : op.mode = .READ_PAYLOAD
  len : op.len = (c.bytes holder).length
  within : op.bytesRead ≤ op.len
  buffer : ∀ bytes, c = .buffer bytes →
    op.nopObject = none ∧ op.ptr = bytes.take op.bytesRead
  object : ∀ a, c = .object a → op.nopObject.isSome = true
    ∧ (op.bytesRead = 0 ∨ op.bytesRead = op.len ∧ op.nopObject = some a)

/-- The reader at each point, before it has the length of the frame. -/
def LengthPhase (role : RingBufferRole) : Point → Prop
  | .start => role.Closed
  | .length => role.inTx = true ∧ role.Accessing .read false 4
  | .commit => role.Committing
  | _ => False

/-- The reader at each point, once it has the length. -/
def PayloadPhase (c : Content α) (op : RingbufferReadOperation α) (role : RingBufferRole) :
    Point → Prop
  | .start => role.Closed ∧ op.completed = false
  | .payload =>
      role.inTx = true
        ∧ (op.nopObject.isSome = true → op.bytesRead = 0
          ∧ role.Accessing .access false (UInt64.ofNat op.len))
        ∧ (op.nopObject = none →
          role.Accessing .read true (UInt64.ofNat (op.len - op.bytesRead)))
  | .parse =>
      role.inTx = true ∧ role.call = .idle ∧ op.nopObject.isSome = true ∧ op.bytesRead = 0
        ∧ op.len ≤ role.txSize.toNat
  | .commit => role.Committing ∧ (op.completed = true → op.content = c)
  | _ => False

/-- What the reader was granted and has still to parse. -/
def RingbufferReadOperation.unparsed (op : RingbufferReadOperation α) : Point → Nat
  | .parse => op.len
  | _ => 0

/-- The reader has taken a prefix of the frames from the ring. -/
inductive ReaderInv (writes : List (Content α)) (r : Side α (RingbufferReadOperation α))
    (role : RingBufferRole) (pos : Nat) : Prop where
  | between (targets : List (Target α)) (todo : List (Content α)) (taken : List UInt8)
      (hops : r.ops = targets.map .make) (hwrites : writes = r.done ++ todo)
      (hfit : ∀ p ∈ targets.zip todo, p.1.Fits p.2) (hphase : LengthPhase role r.point)
      (htaken : taken = frames holder r.done)
      (hpos : pos + role.txSize.toNat = taken.length + role.uncopied)
  | within (targets : List (Target α)) (c : Content α) (rest : List (Content α))
      (op : RingbufferReadOperation α) (taken : List UInt8)
      (hops : r.ops = op :: targets.map .make) (hwrites : writes = r.done ++ c :: rest)
      (hfit : ∀ p ∈ targets.zip rest, p.1.Fits p.2) (hop : op.Reading holder c)
      (hphase : PayloadPhase c op role r.point)
      (htaken : taken = frames holder r.done
        ++ (lengthBytes (UInt32.ofNat (c.bytes holder).length)
          ++ (c.bytes holder).take op.bytesRead))
      (hpos : pos + role.txSize.toNat = taken.length + role.uncopied + op.unparsed r.point)

/-- The ring, what it shows, and the two sides. -/
structure StreamInv (cap : Nat) (writes : List (Content α)) (s : Stream α)
    (put : List UInt8) : Prop where
  ring : RingInv id cap s.ring s.history
  shows : Shows cap s.ring.data (s.history.pos 0) put
  writer : WriterInv holder writes s.writer (s.ring.roles 1) (s.history.pos 1) put
  reader : ReaderInv holder writes s.reader (s.ring.roles 0) (s.history.pos 0)
  dchecks : s.reader.dchecks = true

-- ── The writer ───────────────────────────────────────────────────────────────

section Steps

variable {holder} {cap : Nat} {writes : List (Content α)} {s s' : Stream α} {put : List UInt8}

/-- Between two calls nothing is left to copy. -/
theorem uncopied_idle {role : RingBufferRole} (hcall : role.call = .idle) :
    role.uncopied = 0 := by
  rw [RingBufferRole.uncopied, hcall]

/-- At the end of a transaction nothing is left to copy. -/
theorem uncopied_ending {role : RingBufferRole} (hcall : role.call = .ending) :
    role.uncopied = 0 := by
  rw [RingBufferRole.uncopied, hcall]

/-- Between two calls nothing is accessed. -/
theorem accessing_idle {role : RingBufferRole} (hcall : role.call = .idle) (use : Use)
    (allowPartial : Bool) (size : UInt64) : role.Accessing use allowPartial size := by
  rw [RingBufferRole.Accessing, hcall]
  trivial

/-- A copy is part of its transaction. -/
theorem uncopied_le (hinv : RingInv id cap s.ring s.history) (i : Fin 2) :
    (s.ring.roles i).uncopied ≤ (s.ring.roles i).txSize.toNat := by
  cases hcall : (s.ring.roles i).call with
  | copying use buffers =>
      obtain ⟨offset, hoffset, -⟩ := (hinv.roles i).copying use buffers hcall
      rw [RingBufferRole.uncopied, hcall]
      exact Nat.le.intro ((Nat.add_comm _ _).trans hoffset)
  | _ =>
      rw [RingBufferRole.uncopied, hcall]
      exact Nat.zero_le _

/-- The states of a stream after a step of the ring. -/
theorem access_some {i : Fin 2} {action : Action} {t : Stream α}
    (haccess : s.access i action = some t) :
    ∃ ring, s.ring.step id action i = some ring
      ∧ t = { s with ring := ring, history := s.ring.track id action i s.history } := by
  rw [Stream.access] at haccess
  cases hring : s.ring.step id action i with
  | none =>
      rw [hring] at haccess
      exact nomatch haccess
  | some ring =>
      rw [hring] at haccess
      exact ⟨ring, rfl, (Option.some.inj haccess).symm⟩

/-- What a call of the writer does. -/
theorem writeCall_some {op : RingbufferWriteOperation α}
    {rest : List (RingbufferWriteOperation α)} (hstep : s.writeCall holder op rest = some s') :
    ∃ t, s.access 1 (s.pending 1 (op.call s.writer.point)) = some t
      ∧ s' = if (t.ring.roles 1).call = .idle then t.writeReturned holder op rest else t := by
  rw [Stream.writeCall] at hstep
  obtain ⟨t, ht, rfl⟩ := Option.map_eq_some_iff.mp hstep
  exact ⟨t, ht, rfl⟩

/-- A new write has the length of its bytes. -/
theorem Content.len_make {c : Content α} (hc : c.Sendable holder cap) :
    (RingbufferWriteOperation.make holder c).len = (c.bytes holder).length := by
  cases c with
  | buffer bytes => rfl
  | object a => exact hc.2.size.symm

/-- A write has the length of its bytes. -/
theorem RingbufferWriteOperation.Writing.len {op : RingbufferWriteOperation α} {c : Content α}
    (hop : op.Writing holder c) (hc : c.Sendable holder cap) :
    op.len = (c.bytes holder).length := by
  rw [hop.same]
  exact Content.len_make hc

/-- The content of a write. -/
theorem RingbufferWriteOperation.Writing.content {op : RingbufferWriteOperation α}
    {c : Content α} (hop : op.Writing holder c) : op.content = c := by
  rw [hop.same]
  cases c <;> rfl

/-- A write may go on to its payload. -/
theorem RingbufferWriteOperation.Writing.withMode {op : RingbufferWriteOperation α}
    {c : Content α} (hop : op.Writing holder c) (mode : WriteMode)
    (hmode : mode = .WRITE_LENGTH → op.bytesWritten = 0) :
    Writing holder { op with mode := mode } c :=
  ⟨by rw [hop.same], hop.within, hop.whole, hmode⟩

/-- A write may have more of its bytes written. -/
theorem RingbufferWriteOperation.Writing.withBytes {op : RingbufferWriteOperation α}
    {c : Content α} (hop : op.Writing holder c) {n : Nat} (hn : n ≤ op.len)
    (hwhole : op.nopObject.isSome = true → n = 0 ∨ n = op.len)
    (hfresh : op.mode = .WRITE_LENGTH → n = 0) :
    Writing holder { op with bytesWritten := n } c :=
  ⟨by rw [hop.same], hn, hwhole, hfresh⟩

/-- A step of the writer leaves the reader where it is. -/
theorem StreamInv.ofWriter (hinv : StreamInv holder cap writes s put) {t : Stream α}
    {action : Action} (haccess : s.access 1 action = some t) {put' : List UInt8}
    {w : Side α (RingbufferWriteOperation α)}
    (hroles : ∀ j ≠ 1, t.ring.roles j = s.ring.roles j)
    (hpos : t.history.pos 0 = s.history.pos 0)
    (hshows : Shows cap t.ring.data (s.history.pos 0) put')
    (hwriter : WriterInv holder writes w (t.ring.roles 1) (t.history.pos 1) put') :
    StreamInv holder cap writes { t with writer := w } put' := by
  obtain ⟨ring, hring, rfl⟩ := access_some haccess
  refine ⟨hinv.ring.step hring, ?_, hwriter, ?_, hinv.dchecks⟩
  · show Shows cap ring.data ((s.ring.track id action 1 s.history).pos 0) put'
    rw [show (s.ring.track id action 1 s.history).pos 0 = s.history.pos 0 from hpos]
    exact hshows
  · show ReaderInv holder writes s.reader (ring.roles 0)
      ((s.ring.track id action 1 s.history).pos 0)
    rw [show ring.roles 0 = s.ring.roles 0 from hroles 0 (by decide),
      show (s.ring.track id action 1 s.history).pos 0 = s.history.pos 0 from hpos]
    exact hinv.reader

/-- `access_step`, with the rest of the stream. -/
theorem access_at (hinv : RingInv id cap s.ring s.history) {i : Fin 2} {action : Action}
    {use : Use} {allowPartial : Bool} {size : UInt64} {base : Nat}
    (haction : action.access? = some (use, allowPartial, size))
    (hopen : (s.ring.roles i).inTx = true)
    (hacc : (s.ring.roles i).Accessing use allowPartial size)
    (hbase : (s.ring.roles i).txSize.toNat = base + (s.ring.roles i).uncopied) {t : Stream α}
    (haccess : s.access i (s.pending i action) = some t) :
    AccessStep use allowPartial size cap (s.history.pos i) base s.ring.data t.ring.data
        (t.ring.roles i)
      ∧ (t.ring.roles i).inTx = true ∧ (∀ j ≠ i, t.ring.roles j = s.ring.roles j)
      ∧ t.history.pos = s.history.pos ∧ t.writer = s.writer ∧ t.reader = s.reader
      ∧ RingInv id cap t.ring t.history := by
  obtain ⟨ring, hring, rfl⟩ := access_some haccess
  obtain ⟨hstep, hin, hroles⟩ := access_step hinv haction hopen hacc hbase hring
  refine ⟨hstep, hin, hroles, track_pos ?_, rfl, rfl, hinv.step hring⟩
  rw [Stream.pending]
  by_cases hcall : (s.ring.roles i).call = .idle
  · rw [if_pos hcall]
    rintro rfl
    exact nomatch haction
  · rw [if_neg hcall]
    exact nofun

/-- The writer may go on up to one whole buffer ahead of the reader. -/
theorem limit_writer (cap : Nat) (pos : Fin 2 → Nat) : limit cap pos 1 = pos 0 + cap :=
  limit_last

/-- The reader may go on up to the writer. -/
theorem limit_reader (cap : Nat) (pos : Fin 2 → Nat) : limit cap pos 0 = pos 1 := rfl

/-- The bytes that the writer puts next are shown. -/
theorem StreamInv.extend (hinv : StreamInv holder cap writes s put) {t : Stream α}
    (hring : RingInv id cap t.ring t.history) (hsame : t.history.pos = s.history.pos)
    {base k : Nat} (hlen : put.length = s.history.pos 1 + base)
    (htx : base + k ≤ (t.ring.roles 1).txSize.toNat) {bytes : List UInt8}
    (hbytes : bytes.length = k) :
    Shows cap (store s.ring.data (cells cap (s.history.pos 1 + base) k) bytes)
      (s.history.pos 0) (put ++ bytes) := by
  have hwithin := (hring.roles 1).within
  rw [hsame] at hwithin
  have hlimit : limit cap s.history.pos (id 1) = s.history.pos 0 + cap := limit_writer _ _
  have horder : s.history.pos 0 ≤ s.history.pos 1 := hinv.ring.order.mono (Fin.zero_le 1)
  rw [← hlen, ← hbytes]
  refine hinv.shows.extend bytes (by omega) ?_
  rw [hlimit] at hwithin
  have hone : s.history.pos (id 1) = s.history.pos 1 := rfl
  omega

/-- The next operation, or none. -/
theorem WriterInv.next {w : Side α (RingbufferWriteOperation α)} {role : RingBufferRole}
    {pos : Nat} (todo : List (Content α)) (hops : w.ops = todo.map (.make holder))
    (hwrites : writes = w.done ++ todo) (hpoint : w.point = .start) (hclosed : role.Closed)
    (hput : put ++ frames holder todo = frames holder writes)
    (hpos : pos + role.txSize.toNat = put.length) (htx : role.txSize = 0) :
    WriterInv holder writes w role pos put := by
  cases todo with
  | nil =>
      refine .finished hops hpoint ?_ hclosed ?_ ?_
      · rw [hwrites, List.append_nil]
      · rw [← hput]
        exact (List.append_nil put).symm
      · rw [htx] at hpos
        exact hpos
  | cons c rest =>
      refine .front c rest (.make holder c) hops hwrites ⟨?_, ?_, ?_, ?_⟩ ?_ ?_ ?_
      · cases c <;> rfl
      · cases c <;> exact Nat.zero_le _
      · intro _
        cases c <;> exact Or.inl rfl
      · intro _
        cases c <;> rfl
      · rw [hpoint]
        refine ⟨hclosed, ?_⟩
        cases c <;> rfl
      · rw [hpoint, RingbufferWriteOperation.left]
        · rw [if_pos (by cases c <;> rfl)]
          exact hput
        · exact nofun
      · rw [hpoint, uncopied_idle hclosed.2]
        exact hpos

section Writer

variable (hinv : StreamInv holder cap writes s put) {c : Content α} {rest : List (Content α)}
  {op : RingbufferWriteOperation α} (hops : s.writer.ops = op :: rest.map (.make holder))
  (hwrites : writes = s.writer.done ++ c :: rest) (hsend : c.Sendable holder cap)
  (hop : op.Writing holder c)

/-- A call goes on: only the role changes. -/
theorem write_busy (hinv : StreamInv holder cap writes s put)
    (hops : s.writer.ops = op :: rest.map (.make holder))
    (hwrites : writes = s.writer.done ++ c :: rest) (hop : op.Writing holder c) {t : Stream α}
    {action : Action} (haccess : s.access 1 action = some t)
    (hroles : ∀ j ≠ 1, t.ring.roles j = s.ring.roles j) (hsame : t.history.pos = s.history.pos)
    (hwriter : t.writer = s.writer) (hdata : t.ring.data = s.ring.data) {base : Nat}
    (hlen : put.length = s.history.pos 1 + base)
    (hphase : WritePhase op (t.ring.roles 1) s.writer.point)
    (hput : s.writer.point.unfilled = 0
      ∧ put ++ (op.left holder c s.writer.point ++ frames holder rest) = frames holder writes)
    (htx : (t.ring.roles 1).txSize.toNat = base + (t.ring.roles 1).uncopied) :
    StreamInv holder cap writes t put := by
  refine hinv.ofWriter haccess hroles (congrFun hsame 0) ?_ (.front c rest op ?_ ?_ hop ?_ ?_ ?_)
  · rw [hdata]
    exact hinv.shows
  · rw [hwriter]
    exact hops
  · rw [hwriter]
    exact hwrites
  · rw [hwriter]
    exact hphase
  · rw [hwriter]
    exact hput.2
  · rw [hwriter, hput.1, hsame, htx, hlen]
    exact (Nat.add_assoc _ _ _).symm

include hinv hwrites hop

/-- `handleWrite` opens its transaction. -/
theorem write_start (hpoint : s.writer.point = .start)
    (hphase : (s.ring.roles 1).Closed ∧ op.completed = false)
    (hput : put ++ (op.left holder c .start ++ frames holder rest) = frames holder writes)
    (hpos : s.history.pos 1 + (s.ring.roles 1).txSize.toNat = put.length)
    (hstep : s.writeCall holder op (rest.map (.make holder)) = some s') :
    StreamInv holder cap writes s' put := by
  obtain ⟨⟨hclosed, hcall⟩, hcompleted⟩ := hphase
  obtain ⟨t, haccess, rfl⟩ := writeCall_some hstep
  rw [Stream.pending, if_pos hcall, hpoint] at haccess
  obtain ⟨ring, hring, rfl⟩ := access_some haccess
  obtain ⟨hrole, hdata, hroles⟩ := start_step hinv.ring hclosed hcall hring
  have hidle : (ring.roles 1).call = .idle := by
    rw [hrole]
    rfl
  have htrack : (s.ring.track id .startTx 1 s.history).pos = s.history.pos := track_pos nofun
  have hshows : Shows cap ring.data (s.history.pos 0) put := by
    rw [hdata]
    exact hinv.shows
  rw [if_pos hidle, Stream.writeReturned]
  simp only [hpoint, RingbufferWriteOperation.returned, hrole, RingBufferRole.return]
  refine hinv.ofWriter haccess hroles (congrFun htrack 0) hshows ?_
  have hpos' : (s.ring.track id .startTx 1 s.history).pos 1 + (ring.roles 1).txSize.toNat
      = put.length + (ring.roles 1).uncopied + 0 := by
    rw [htrack, uncopied_idle hidle, hrole]
    exact hpos
  by_cases hmode : op.mode = .WRITE_LENGTH
  · rw [if_pos hmode]
    exact .front c rest op rfl hwrites hop
      ⟨by rw [hrole], hmode, accessing_idle hidle _ _ _⟩ hput hpos'
  · rw [if_neg hmode]
    have hpayload : op.mode = .WRITE_PAYLOAD := by
      cases hm : op.mode with
      | WRITE_LENGTH => exact absurd hm hmode
      | WRITE_PAYLOAD => rfl
    refine .front c rest op rfl hwrites hop ⟨by rw [hrole], hpayload, ?_, ?_⟩ hput hpos'
    · intro hnop
      refine ⟨?_, accessing_idle hidle _ _ _⟩
      rcases hop.whole hnop with hzero | hall
      · exact hzero
      · rw [RingbufferWriteOperation.completed, decide_eq_false_iff_not] at hcompleted
        exact absurd ⟨hpayload, hall⟩ hcompleted
    · intro _
      exact accessing_idle hidle _ _ _

include hops hsend

/-- The length of the frame. -/
theorem write_length (hpoint : s.writer.point = .length)
    (hphase : (s.ring.roles 1).inTx = true ∧ op.mode = .WRITE_LENGTH
      ∧ (s.ring.roles 1).Accessing (.write (lengthBytes (UInt32.ofNat op.len))) false 4)
    (hput : put ++ (op.left holder c .length ++ frames holder rest) = frames holder writes)
    (hpos : s.history.pos 1 + (s.ring.roles 1).txSize.toNat
      = put.length + (s.ring.roles 1).uncopied)
    (hstep : s.writeCall holder op (rest.map (.make holder)) = some s') :
    ∃ put', StreamInv holder cap writes s' put' := by
  obtain ⟨hopen, hmode, hacc⟩ := hphase
  obtain ⟨t, haccess, rfl⟩ := writeCall_some hstep
  rw [hpoint] at haccess
  obtain ⟨base, hbase⟩ := Nat.exists_eq_add_of_le' (uncopied_le hinv.ring 1)
  have hlen : put.length = s.history.pos 1 + base := by omega
  obtain ⟨hout, hin, hroles, hsame, hwriter, -, hring⟩ :=
    access_at hinv.ring rfl hopen hacc hbase haccess
  cases hout with
  | busy hcall hacc' htx hdata =>
      rw [if_neg hcall]
      refine ⟨put, write_busy hinv hops hwrites hop haccess hroles hsame hwriter hdata hlen ?_ ?_
        htx⟩
      · rw [hpoint]
        exact ⟨hin, hmode, hacc'⟩
      · rw [hpoint]
        exact ⟨rfl, hput⟩
  | failed hcall hpart hresult htx hdata =>
      rw [if_pos hcall, Stream.writeReturned, hwriter, hpoint, hresult]
      refine ⟨put, hinv.ofWriter haccess hroles (congrFun hsame 0) ?_
        (.front c rest op rfl ?_ hop (Or.inl ⟨hin, hcall⟩) hput ?_)⟩
      · rw [hdata]
        exact hinv.shows
      · rw [hwriter]
        exact hwrites
      · rw [hsame, htx, hlen, uncopied_idle hcall]
        rfl
  | done k hcall hle hall hresult htx hdata _ =>
      obtain rfl : k = 4 := hall rfl
      obtain ⟨m, hresult, -⟩ := hresult
      rw [if_pos hcall, Stream.writeReturned, hwriter, hpoint, hresult]
      refine ⟨put ++ lengthBytes (UInt32.ofNat op.len), hinv.ofWriter haccess hroles
        (congrFun hsame 0) ?_ (.front c rest { op with mode := .WRITE_PAYLOAD } rfl ?_ ?_ ?_ ?_ ?_)⟩
      · rw [hdata]
        exact hinv.extend hring hsame hlen (Nat.le_of_eq htx.symm) rfl
      · rw [hwriter]
        exact hwrites
      · exact hop.withMode .WRITE_PAYLOAD nofun
      · exact ⟨hin, rfl, fun _ => ⟨hop.fresh hmode, accessing_idle hcall _ _ _⟩,
          fun _ => accessing_idle hcall _ _ _⟩
      · simp only [RingbufferWriteOperation.left, hmode, if_pos, Content.frame, hop.fresh hmode,
          ← hop.len hsend, List.append_assoc, List.drop_zero] at hput ⊢
        exact hput
      · rw [hsame, htx, List.length_append, hlen, uncopied_idle hcall, Nat.add_assoc]
        rfl

/-- A part of a buffer. -/
theorem write_buffer (hpoint : s.writer.point = .payload)
    (hopen : (s.ring.roles 1).inTx = true) (hmode : op.mode = .WRITE_PAYLOAD)
    (hptr : op.nopObject = none)
    (hacc : (s.ring.roles 1).Accessing (.write (op.ptr.drop op.bytesWritten)) true
      (UInt64.ofNat (op.len - op.bytesWritten)))
    (hput : put ++ (op.left holder c .payload ++ frames holder rest) = frames holder writes)
    (hpos : s.history.pos 1 + (s.ring.roles 1).txSize.toNat
      = put.length + (s.ring.roles 1).uncopied)
    (hstep : s.writeCall holder op (rest.map (.make holder)) = some s') :
    ∃ put', StreamInv holder cap writes s' put' := by
  obtain ⟨t, haccess, rfl⟩ := writeCall_some hstep
  obtain ⟨bytes, rfl⟩ : ∃ bytes, c = .buffer bytes := by
    cases c with
    | buffer bytes => exact ⟨bytes, rfl⟩
    | object a =>
        rw [hop.same] at hptr
        exact nomatch hptr
  have hbytes : op.ptr = bytes := by
    rw [hop.same]
    rfl
  have hlength : op.len = bytes.length := hop.len hsend
  have hwithin := hop.within
  have hsmall : bytes.length < 2 ^ 32 := hsend
  have hcall : op.call .payload = .writeInTx true (op.ptr.drop op.bytesWritten) := by
    simp only [RingbufferWriteOperation.call, hptr]
    rw [List.take_of_length_le]
    rw [List.length_drop, hbytes, hlength]
  have haction : (op.call .payload).access? = some (.write (op.ptr.drop op.bytesWritten), true,
      UInt64.ofNat (op.len - op.bytesWritten)) := by
    rw [hcall, Action.access?, List.length_drop, hbytes, hlength]
  have hsize : (UInt64.ofNat (op.len - op.bytesWritten)).toNat = op.len - op.bytesWritten :=
    UInt64.toNat_ofNat_of_lt (Nat.lt_of_le_of_lt (Nat.sub_le _ _)
      (hlength ▸ Nat.lt_trans hsmall (by decide)))
  have hret : ∀ txSize m, op.returned holder txSize (.ok m) .payload
      = ({ op with bytesWritten := op.bytesWritten + m }, .commit, m) := by
    intro txSize m
    rw [RingbufferWriteOperation.returned, hptr]
  rw [hpoint] at haccess
  obtain ⟨base, hbase⟩ := Nat.exists_eq_add_of_le' (uncopied_le hinv.ring 1)
  have hlen : put.length = s.history.pos 1 + base := by omega
  obtain ⟨hout, hin, hroles, hsame, hwriter, -, hring⟩ :=
    access_at hinv.ring haction hopen hacc hbase haccess
  cases hout with
  | busy hcall hacc' htx hdata =>
      rw [if_neg hcall]
      refine ⟨put, write_busy hinv hops hwrites hop haccess hroles hsame hwriter hdata hlen ?_ ?_
        htx⟩
      · rw [hpoint]
        refine ⟨hin, hmode, ?_, fun _ => hacc'⟩
        rw [hptr]
        exact nofun
      · rw [hpoint]
        exact ⟨rfl, hput⟩
  | failed hcall hpart hresult htx hdata => exact nomatch hpart
  | done k hcall hle hall hresult htx hdata _ =>
      obtain ⟨m, hresult, hm⟩ := hresult
      obtain rfl := hm nofun
      rw [hsize] at hle
      have htake : ((op.ptr.drop op.bytesWritten).take m).length = m := by
        rw [List.length_take, List.length_drop, hbytes, ← hlength]
        exact Nat.min_eq_left hle
      rw [if_pos hcall, Stream.writeReturned, hwriter, hpoint, hresult]
      dsimp only
      rw [hret]
      refine ⟨put ++ (op.ptr.drop op.bytesWritten).take m, hinv.ofWriter haccess hroles
        (congrFun hsame 0) ?_ (.front (.buffer bytes) rest
          { op with bytesWritten := op.bytesWritten + m } rfl ?_ ?_ (Or.inl ⟨hin, hcall⟩) ?_ ?_)⟩
      · rw [hdata]
        exact hinv.extend hring hsame hlen (Nat.le_of_eq htx.symm) htake
      · rw [hwriter]
        exact hwrites
      · refine hop.withBytes (by omega) ?_ ?_
        · rw [hptr]
          exact nofun
        · rw [hmode]
          exact nofun
      · have hleft : ∀ k, (RingbufferWriteOperation.left holder
            { op with bytesWritten := k } (.buffer bytes) .commit) = op.ptr.drop k := by
          intro k
          rw [hbytes, RingbufferWriteOperation.left]
          · rw [hmode]
            rfl
          · exact nofun
        rw [List.append_assoc, ← List.append_assoc (List.take _ _)]
        have hsplit : (op.ptr.drop op.bytesWritten).take m ++ op.ptr.drop (op.bytesWritten + m)
            = op.ptr.drop op.bytesWritten := by
          rw [← List.drop_drop, List.take_append_drop]
        refine Eq.trans ?_ hput
        refine congrArg (fun x => put ++ (x ++ frames holder rest)) ?_
        exact (congrArg _ (hleft _)).trans (hsplit.trans (hleft _).symm)
      · rw [hsame, htx, List.length_append, htake, hlen, uncopied_idle hcall]
        exact (Nat.add_assoc _ _ _).symm

/-- Room for a whole object, or none. -/
theorem write_object (hpoint : s.writer.point = .payload)
    (hopen : (s.ring.roles 1).inTx = true) (hmode : op.mode = .WRITE_PAYLOAD)
    (hnop : op.nopObject.isSome = true) (hzero : op.bytesWritten = 0)
    (hacc : (s.ring.roles 1).Accessing .access false (UInt64.ofNat op.len))
    (hput : put ++ (op.left holder c .payload ++ frames holder rest) = frames holder writes)
    (hpos : s.history.pos 1 + (s.ring.roles 1).txSize.toNat
      = put.length + (s.ring.roles 1).uncopied)
    (hstep : s.writeCall holder op (rest.map (.make holder)) = some s') :
    ∃ put', StreamInv holder cap writes s' put' := by
  obtain ⟨t, haccess, rfl⟩ := writeCall_some hstep
  obtain ⟨a, rfl⟩ : ∃ a, c = .object a := by
    cases c with
    | buffer bytes =>
        rw [hop.same] at hnop
        exact nomatch hnop
    | object a => exact ⟨a, rfl⟩
  have hobject : op.nopObject = some a := by
    rw [hop.same]
    rfl
  have hgetSize : op.len = holder.getSize a := by
    rw [hop.same]
    rfl
  have hlength : op.len = (holder.write a (holder.getSize a)).1.length := hop.len hsend
  have haction : (op.call .payload).access? = some (.access, false, UInt64.ofNat op.len) := by
    rw [RingbufferWriteOperation.call, hobject]
    rfl
  have hcap := hsend.1
  have hsmall := hinv.ring.sized.small
  have hsize : (UInt64.ofNat op.len).toNat = op.len := toNat_ofNat_small (by omega)
  rw [hpoint] at haccess
  obtain ⟨base, hbase⟩ := Nat.exists_eq_add_of_le' (uncopied_le hinv.ring 1)
  have hlen : put.length = s.history.pos 1 + base := by omega
  obtain ⟨hout, hin, hroles, hsame, hwriter, -, hring⟩ :=
    access_at hinv.ring haction hopen hacc hbase haccess
  cases hout with
  | busy hcall hacc' htx hdata =>
      rw [if_neg hcall]
      refine ⟨put, write_busy hinv hops hwrites hop haccess hroles hsame hwriter hdata hlen ?_ ?_
        htx⟩
      · rw [hpoint]
        refine ⟨hin, hmode, fun _ => ⟨hzero, hacc'⟩, ?_⟩
        rw [hobject]
        exact nofun
      · rw [hpoint]
        exact ⟨rfl, hput⟩
  | failed hcall hpart hresult htx hdata =>
      rw [if_pos hcall, Stream.writeReturned, hwriter, hpoint, hresult]
      refine ⟨put, hinv.ofWriter haccess hroles (congrFun hsame 0) ?_
        (.front (.object a) rest op rfl ?_ hop (Or.inl ⟨hin, hcall⟩) hput ?_)⟩
      · rw [hdata]
        exact hinv.shows
      · rw [hwriter]
        exact hwrites
      · rw [hsame, htx, hlen, uncopied_idle hcall]
        rfl
  | done k hcall hle hall hresult htx hdata _ =>
      obtain rfl : k = op.len := (hall rfl).trans hsize
      obtain ⟨m, hresult, -⟩ := hresult
      have hret : op.returned holder (t.ring.roles 1).txSize.toNat (.ok m) .payload
          = (op, .fill base (holder.write a (holder.getSize a)).1 .None, 0) := by
        rw [RingbufferWriteOperation.returned, hobject, htx, Nat.add_sub_cancel, ← hsend.2.written,
          hgetSize]
      rw [if_pos hcall, Stream.writeReturned, hwriter, hpoint, hresult]
      dsimp only
      rw [hret]
      refine ⟨put, hinv.ofWriter haccess hroles (congrFun hsame 0) ?_
        (.front (.object a) rest op rfl ?_ hop ⟨hin, hcall, hmode, hnop, hzero, rfl, ?_⟩ ?_ ?_)⟩
      · rw [hdata]
        exact hinv.shows
      · rw [hwriter]
        exact hwrites
      · rw [htx, ← hlength]
      · rw [RingbufferWriteOperation.left, hmode, hzero] at hput
        · exact hput
        · exact nofun
      · rw [hsame, htx, hlen, uncopied_idle hcall]
        show _ = _ + 0 + (holder.write a (holder.getSize a)).1.length
        rw [← hlength]
        exact (Nat.add_assoc _ _ _).symm

omit hops hsend

/-- One byte of an object. -/
theorem write_byte {offset : Nat} {b : UInt8} {bytes : List UInt8} {status : ErrorStatus}
    (hphase : WritePhase op (s.ring.roles 1) (.fill offset (b :: bytes) status))
    (hput : put ++ (b :: bytes ++ frames holder rest) = frames holder writes)
    (hpos : s.history.pos 1 + (s.ring.roles 1).txSize.toNat
      = put.length + (s.ring.roles 1).uncopied + (bytes.length + 1)) {t : Stream α}
    (haccess : s.access 1 (.poke offset b) = some t) :
    StreamInv holder cap writes
      (t.setWriter (rest.map (.make holder)) (op, .fill (offset + 1) bytes status, 0))
      (put ++ [b]) := by
  obtain ⟨hopen, hcall, hmode, hnop, hzero, hstatus, hoffset⟩ := hphase
  obtain ⟨ring, hring, rfl⟩ := access_some haccess
  obtain ⟨rfl, hlt⟩ := poke_step hinv.ring hcall hring
  have hsame : (s.ring.track id (.poke offset b) 1 s.history).pos = s.history.pos :=
    track_pos nofun
  rw [List.length_cons] at hoffset
  have hlen : put.length = s.history.pos 1 + offset := by
    rw [uncopied_idle hcall] at hpos
    omega
  refine hinv.ofWriter haccess (fun _ _ => rfl) (congrFun hsame 0) ?_
    (.front c rest op rfl hwrites hop ⟨hopen, hcall, hmode, hnop, hzero, hstatus, ?_⟩ ?_ ?_)
  · exact hinv.extend hinv.ring rfl hlen (by omega) rfl
  · show offset + 1 + bytes.length = (s.ring.roles 1).txSize.toNat
    omega
  · rw [List.append_assoc]
    exact hput
  · show (s.ring.track id (.poke offset b) 1 s.history).pos 1 + (s.ring.roles 1).txSize.toNat
      = (put ++ [b]).length + (s.ring.roles 1).uncopied + bytes.length
    rw [hsame, hpos, List.length_append, List.length_singleton]
    omega

/-- All of an object. -/
theorem write_filled {offset : Nat} {status : ErrorStatus} (hsend : c.Sendable holder cap)
    (hphase : WritePhase op (s.ring.roles 1) (.fill offset [] status))
    (hput : put ++ ([] ++ frames holder rest) = frames holder writes)
    (hpos : s.history.pos 1 + (s.ring.roles 1).txSize.toNat
      = put.length + (s.ring.roles 1).uncopied + 0) :
    StreamInv holder cap writes
      (s.setWriter (rest.map (.make holder)) (op.filled status)) put := by
  obtain ⟨hopen, hcall, hmode, hnop, hzero, rfl, -⟩ := hphase
  refine ⟨hinv.ring, hinv.shows, ?_, hinv.reader, hinv.dchecks⟩
  refine .front c rest { op with bytesWritten := op.bytesWritten + op.len } rfl hwrites ?_
    (Or.inl ⟨hopen, hcall⟩) ?_ hpos
  · rw [hzero, Nat.zero_add]
    refine hop.withBytes (Nat.le_refl _) (fun _ => Or.inr rfl) ?_
    rw [hmode]
    exact nofun
  · show put ++ (RingbufferWriteOperation.left holder
      { op with bytesWritten := op.bytesWritten + op.len } c .commit ++ frames holder rest) = _
    have hleft : RingbufferWriteOperation.left holder
        { op with bytesWritten := op.bytesWritten + op.len } c .commit = [] := by
      rw [RingbufferWriteOperation.left, hmode, hzero, hop.len hsend]
      · exact List.drop_eq_nil_of_le (Nat.le_add_left _ _)
      · exact nofun
    rw [hleft]
    exact hput

include hops

/-- The commit, in two halves; a completed operation makes place for the next. -/
theorem write_commit (hsend : c.Sendable holder cap) (hpoint : s.writer.point = .commit)
    (hphase : (s.ring.roles 1).Committing)
    (hput : put ++ (op.left holder c .commit ++ frames holder rest) = frames holder writes)
    (hpos : s.history.pos 1 + (s.ring.roles 1).txSize.toNat
      = put.length + (s.ring.roles 1).uncopied)
    (hstep : s.writeCall holder op (rest.map (.make holder)) = some s') :
    StreamInv holder cap writes s' put := by
  obtain ⟨t, haccess, rfl⟩ := writeCall_some hstep
  rw [hpoint, Stream.pending] at haccess
  rcases hphase with ⟨hopen, hcall⟩ | hending
  · rw [if_pos hcall] at haccess
    obtain ⟨ring, hring, rfl⟩ := access_some haccess
    obtain ⟨hrole, hdata, hroles⟩ := commit_step hopen hcall hring
    have hmoved := track_commit hinv.ring hopen hcall
    have hcall' : (ring.roles 1).call = .ending := by rw [hrole]
    have hpos0 : (s.ring.track id .commitTx 1 s.history).pos 0 = s.history.pos 0 := by
      rw [hmoved]
      rfl
    rw [if_neg (by rw [hcall']; exact nofun)]
    refine hinv.ofWriter haccess hroles hpos0 ?_ (.front c rest op hops hwrites hop ?_ ?_ ?_)
    · rw [hdata]
      exact hinv.shows
    · rw [hpoint]
      exact Or.inr hcall'
    · rw [hpoint]
      exact hput
    · show (s.ring.track id .commitTx 1 s.history).pos 1 + (ring.roles 1).txSize.toNat
        = put.length + (ring.roles 1).uncopied + s.writer.point.unfilled
      rw [hmoved, uncopied_ending hcall', hrole, hpoint]
      rw [uncopied_idle hcall] at hpos
      exact hpos
  · rw [if_neg (by rw [hending]; exact nofun)] at haccess
    obtain ⟨ring, hring, rfl⟩ := access_some haccess
    obtain ⟨hrole, hdata, hroles⟩ := ending_step hending hring
    have hin := (hinv.ring.roles 1).ending hending
    have htx := ((hinv.ring.roles 1).closed hin).1
    have hsame : (s.ring.track id .resume 1 s.history).pos = s.history.pos := track_pos nofun
    have hidle : (ring.roles 1).call = .idle := by
      rw [hrole]
      rfl
    have hclosed : (ring.roles 1).Closed := by
      refine ⟨?_, hidle⟩
      rw [hrole]
      exact hin
    have hresult : (ring.roles 1).result = .ok 0 := by
      rw [hrole]
      rfl
    have htx' : (ring.roles 1).txSize = 0 := by
      rw [hrole]
      exact htx
    have hpos' : (s.ring.track id .resume 1 s.history).pos 1 + (ring.roles 1).txSize.toNat
        = put.length := by
      rw [hsame, htx']
      rw [uncopied_ending hending, htx] at hpos
      exact hpos
    have hshows : Shows cap ring.data (s.history.pos 0) put := by
      rw [hdata]
      exact hinv.shows
    rw [if_pos hidle, Stream.writeReturned]
    simp only [hpoint, hresult]
    by_cases hcompleted : op.completed = true
    · rw [if_pos hcompleted]
      refine hinv.ofWriter haccess hroles (congrFun hsame 0) hshows
        (.next rest rfl ?_ rfl hclosed ?_ hpos' htx')
      · rw [hop.content, hwrites, List.append_assoc]
        rfl
      · rw [RingbufferWriteOperation.completed, decide_eq_true_iff] at hcompleted
        rw [RingbufferWriteOperation.left, hcompleted.1, hcompleted.2, hop.len hsend] at hput
        · rw [if_neg nofun, List.drop_length] at hput
          exact hput
        · exact nofun
    · rw [if_neg hcompleted]
      refine hinv.ofWriter haccess hroles (congrFun hsame 0) hshows
        (.front c rest op rfl hwrites hop ⟨hclosed, by simpa using hcompleted⟩ hput ?_)
      rw [uncopied_idle hidle]
      exact hpos'

end Writer

/-- **A step of the writer.** -/
theorem StreamInv.writeStep (hinv : StreamInv holder cap writes s put)
    (hsend : ∀ c ∈ writes, c.Sendable holder cap) (hstep : s.writeStep holder = some s') :
    ∃ put', StreamInv holder cap writes s' put' := by
  rw [Stream.writeStep] at hstep
  cases hinv.writer with
  | finished hops hpoint hdone hclosed hput hpos =>
      rw [hops] at hstep
      exact absurd hstep (by simp)
  | front c rest op hops hwrites hop hphase hput hpos =>
      have hc : c.Sendable holder cap := hsend c (by rw [hwrites]; simp)
      rw [hops] at hstep
      cases hpoint : s.writer.point with
      | start =>
          have hinv' : StreamInv holder cap writes
              { s with writer := { s.writer with bytesNow := 0 } } put :=
            ⟨hinv.ring, hinv.shows, .front c rest op hops hwrites hop hphase hput hpos,
              hinv.reader, hinv.dchecks⟩
          rw [hpoint] at hstep hphase hput hpos
          rw [uncopied_idle hphase.1.2] at hpos
          exact ⟨put, write_start hinv' hwrites hop hpoint hphase hput hpos hstep⟩
      | length =>
          rw [hpoint] at hstep hphase hput hpos
          exact write_length hinv hops hwrites hc hop hpoint hphase hput hpos hstep
      | payload =>
          rw [hpoint] at hstep hphase hput hpos
          obtain ⟨hopen, hmode, hnop, hptr⟩ := hphase
          dsimp only at hstep
          have hfits : ¬ ((s.ring.roles 1).call = .idle ∧ op.nopObject.isSome = true
              ∧ s.ring.header.kDataPoolByteSize.toNat < op.len) := by
            rintro ⟨-, hsome, hlt⟩
            rw [hop.same] at hsome hlt
            cases c with
            | buffer bytes => cases hsome
            | object a =>
                rw [hinv.ring.sized.size, toNat_ofNat_small hinv.ring.sized.small] at hlt
                exact Nat.not_lt.mpr hc.1 hlt
          rw [if_neg hfits] at hstep
          cases hobject : op.nopObject with
          | none =>
              exact write_buffer hinv hops hwrites hc hop hpoint hopen hmode hobject
                (hptr hobject) hput hpos hstep
          | some a =>
              have hsome : op.nopObject.isSome = true := by rw [hobject]; rfl
              obtain ⟨hzero, hacc⟩ := hnop hsome
              exact write_object hinv hops hwrites hc hop hpoint hopen hmode hsome hzero hacc
                hput hpos hstep
      | fill offset bytes status =>
          rw [hpoint] at hstep hphase hput hpos
          cases bytes with
          | nil =>
              obtain rfl := Option.some.inj hstep
              exact ⟨put, write_filled hinv hwrites hop hc hphase hput hpos⟩
          | cons b bytes =>
              obtain ⟨t, haccess, rfl⟩ := Option.map_eq_some_iff.mp hstep
              exact ⟨put ++ [b], write_byte hinv hwrites hop hphase hput hpos haccess⟩
      | parse =>
          rw [hpoint] at hphase
          exact hphase.elim
      | commit =>
          rw [hpoint] at hstep hphase hput hpos
          exact ⟨put, write_commit hinv hops hwrites hop hc hpoint hphase hput hpos hstep⟩
      | threw e =>
          rw [hpoint] at hphase
          exact hphase.elim

-- ── The reader ───────────────────────────────────────────────────────────────

/-- What the writer has put is a part of the frames, and all that it has committed. -/
theorem StreamInv.put_spec (hinv : StreamInv holder cap writes s put) :
    put <+: frames holder writes ∧ s.history.pos 1 ≤ put.length := by
  cases hinv.writer with
  | finished hops hpoint hdone hclosed hput hpos =>
      exact ⟨hput ▸ List.prefix_refl _, Nat.le_of_eq hpos⟩
  | front c rest op hops hwrites hop hphase hput hpos =>
      refine ⟨⟨_, hput⟩, ?_⟩
      have hle := uncopied_le hinv.ring 1
      cases hpoint : s.writer.point with
      | fill offset bytes status =>
          rw [hpoint] at hphase hpos
          rw [uncopied_idle hphase.2.1] at hpos
          have hunfilled : (Point.fill offset bytes status).unfilled = bytes.length := rfl
          have hoffset := hphase.2.2.2.2.2.2
          omega
      | _ =>
          rw [hpoint] at hpos
          simp only [Point.unfilled] at hpos
          omega

/-- A step of the reader leaves the writer where it is. -/
theorem StreamInv.ofReader (hinv : StreamInv holder cap writes s put) {t : Stream α}
    {action : Action} (haccess : s.access 0 action = some t)
    {r : Side α (RingbufferReadOperation α)}
    (hroles : ∀ j ≠ 0, t.ring.roles j = s.ring.roles j)
    (hpos : t.history.pos 1 = s.history.pos 1) (hup : s.history.pos 0 ≤ t.history.pos 0)
    (hdata : t.ring.data = s.ring.data) (hdchecks : r.dchecks = true)
    (hreader : ReaderInv holder writes r (t.ring.roles 0) (t.history.pos 0)) :
    StreamInv holder cap writes { t with reader := r } put := by
  obtain ⟨ring, hring, rfl⟩ := access_some haccess
  refine ⟨hinv.ring.step hring, ?_, ?_, hreader, hdchecks⟩
  · show Shows cap ring.data ((s.ring.track id action 0 s.history).pos 0) put
    rw [show ring.data = s.ring.data from hdata]
    exact hinv.shows.mono hup
  · show WriterInv holder writes s.writer (ring.roles 1)
      ((s.ring.track id action 0 s.history).pos 1) put
    rw [show ring.roles 1 = s.ring.roles 1 from hroles 1 (by decide),
      show (s.ring.track id action 0 s.history).pos 1 = s.history.pos 1 from hpos]
    exact hinv.writer

/-- The bytes that the reader is granted are the next ones of the frames. -/
theorem StreamInv.readNext (hinv : StreamInv holder cap writes s put) {t : Stream α}
    (hring : RingInv id cap t.ring t.history) (hsame : t.history.pos = s.history.pos)
    {taken left : List UInt8} (hwhole : taken ++ left = frames holder writes) {base k : Nat}
    (hlen : taken.length = s.history.pos 0 + base)
    (htx : base + k ≤ (t.ring.roles 0).txSize.toNat) :
    (cells cap (s.history.pos 0 + base) k).map s.ring.data = left.take k ∧ k ≤ left.length := by
  obtain ⟨hpart, hput⟩ := hinv.put_spec
  have hwithin := (hring.roles 0).within
  rw [hsame] at hwithin
  have hlimit : limit cap s.history.pos (id 0) = s.history.pos 1 := limit_reader _ _
  have hzero : s.history.pos (id 0) = s.history.pos 0 := rfl
  rw [← hlen]
  exact hinv.shows.readNext hpart hwhole (by omega) (by omega)

/-- What a call of the reader does. -/
theorem readCall_some {op : RingbufferReadOperation α}
    {rest : List (RingbufferReadOperation α)} (hstep : s.readCall op rest = some s') :
    ∃ t, s.access 0 (s.pending 0 (op.call s.reader.point)) = some t
      ∧ s' = if (t.ring.roles 0).call = .idle then t.readReturned op rest else t := by
  rw [Stream.readCall] at hstep
  obtain ⟨t, ht, rfl⟩ := Option.map_eq_some_iff.mp hstep
  exact ⟨t, ht, rfl⟩

/-- The frames of the writes of both lists. -/
theorem frames_append (l l' : List (Content α)) :
    frames holder (l ++ l') = frames holder l ++ frames holder l' :=
  List.flatMap_append

/-- The frame of the first write, and the others. -/
theorem frames_cons (c : Content α) (l : List (Content α)) :
    frames holder (c :: l) = c.frame holder ++ frames holder l :=
  List.flatMap_cons

/-- A point within the content of a frame. -/
theorem frames_split (done rest : List (Content α)) (c : Content α) (k : Nat) :
    (frames holder done ++ (lengthBytes (UInt32.ofNat (c.bytes holder).length)
        ++ (c.bytes holder).take k)) ++ ((c.bytes holder).drop k ++ frames holder rest)
      = frames holder (done ++ c :: rest) := by
  rw [frames_append, frames_cons, Content.frame, List.append_assoc, List.append_assoc,
    ← List.append_assoc (List.take _ _), List.take_append_drop, List.append_assoc]

/-- A new read begins with the length. -/
theorem make_mode (target : Target α) :
    (RingbufferReadOperation.make target).mode = .READ_LENGTH := by
  cases target <;> rfl

/-- A length that was sent is the one that is decoded. -/
theorem decoded_length {c : Content α} (hc : c.Sendable holder cap) (hcap : cap < 2 ^ 31) :
    (lengthOfBytes (lengthBytes (UInt32.ofNat (c.bytes holder).length))).toNat
      = (c.bytes holder).length := by
  have hsmall : (c.bytes holder).length < 2 ^ 32 := by
    cases c with
    | buffer bytes => exact hc
    | object a =>
        have hsize := hc.2.size
        have hle := hc.1
        show (holder.write a (holder.getSize a)).1.length < 2 ^ 32
        omega
  rw [lengthOfBytes_lengthBytes]
  exact UInt32.toNat_ofNat_of_lt hsmall

/-- Once the length is known, the operation is at the start of the payload. -/
theorem reading_of_setLength (holder : AbstractNopHolder α) {target : Target α} {c : Content α}
    (hfit : target.Fits c) :
    ((RingbufferReadOperation.make target).setLength (c.bytes holder).length).1.Reading holder c
      ∧ ((RingbufferReadOperation.make target).setLength (c.bytes holder).length).2 = true
      ∧ ((RingbufferReadOperation.make target).setLength (c.bytes holder).length).1.bytesRead
        = 0 := by
  cases target with
  | ptr len =>
      cases c with
      | buffer bytes =>
          obtain rfl : len = bytes.length := hfit
          refine ⟨⟨rfl, rfl, Nat.zero_le _, ?_, nofun⟩, beq_self_eq_true _, rfl⟩
          intro bytes' heq
          exact ⟨rfl, rfl⟩
      | object a => exact hfit.elim
  | auto =>
      cases c with
      | buffer bytes =>
          refine ⟨⟨rfl, rfl, Nat.zero_le _, ?_, nofun⟩, rfl, rfl⟩
          intro bytes' heq
          exact ⟨rfl, rfl⟩
      | object a => exact hfit.elim
  | nopObject b =>
      cases c with
      | buffer bytes => exact hfit.elim
      | object a =>
          refine ⟨⟨rfl, rfl, Nat.zero_le _, nofun, ?_⟩, rfl, rfl⟩
          intro a' heq
          exact ⟨rfl, Or.inl rfl⟩

section Reader

variable (hinv : StreamInv holder cap writes s put) {op : RingbufferReadOperation α}
  {targets : List (Target α)}

include hinv

/-- A call goes on: only the role changes. -/
theorem read_busy {t : Stream α} {action : Action} (haccess : s.access 0 action = some t)
    (hroles : ∀ j ≠ 0, t.ring.roles j = s.ring.roles j) (hsame : t.history.pos = s.history.pos)
    (hreader : t.reader = s.reader) (hdata : t.ring.data = s.ring.data)
    (hnext : ReaderInv holder writes s.reader (t.ring.roles 0) (s.history.pos 0)) :
    StreamInv holder cap writes t put := by
  refine hinv.ofReader haccess hroles (congrFun hsame 1) (Nat.le_of_eq (congrFun hsame 0).symm)
    hdata ?_ ?_
  · rw [hreader]
    exact hinv.dchecks
  · rw [hreader, hsame]
    exact hnext

/-- A call returns to `handleRead`. -/
theorem read_returned {t : Stream α} {action : Action} (haccess : s.access 0 action = some t)
    (hroles : ∀ j ≠ 0, t.ring.roles j = s.ring.roles j) (hsame : t.history.pos = s.history.pos)
    (hreader : t.reader = s.reader) (hdata : t.ring.data = s.ring.data)
    (hidle : (t.ring.roles 0).call = .idle) {ret : Except Errno Nat}
    (hresult : (t.ring.roles 0).result = ret) (hpoint : s.reader.point ≠ .commit)
    {rest : List (RingbufferReadOperation α)}
    {next : RingbufferReadOperation α × Point × Nat × Bool}
    (hnext : op.returned (t.ring.roles 0).out ret s.reader.point = next)
    (hdcheck : next.2.2.2 = true)
    (hinv' : ∀ r : Side α (RingbufferReadOperation α), r.ops = next.1 :: rest →
      r.point = next.2.1 → r.done = s.reader.done →
      ReaderInv holder writes r (t.ring.roles 0) (s.history.pos 0)) :
    StreamInv holder cap writes
      (if (t.ring.roles 0).call = .idle then t.readReturned op rest else t) put := by
  rw [if_pos hidle]
  have hform : t.readReturned op rest
      = { t with reader := { s.reader with dchecks := s.reader.dchecks && next.2.2.2 } }.setReader
        rest (next.1, next.2.1, next.2.2.1) := by
    rw [Stream.readReturned, hresult, hreader]
    cases hp : s.reader.point with
    | commit => exact absurd hp hpoint
    | _ =>
        rw [← hnext, hp]
  rw [hform]
  refine hinv.ofReader haccess hroles (congrFun hsame 1) (Nat.le_of_eq (congrFun hsame 0).symm)
    hdata ?_ ?_
  · show (s.reader.dchecks && next.2.2.2) = true
    rw [hinv.dchecks, hdcheck]
    rfl
  · rw [hsame]
    exact hinv' _ rfl rfl rfl

/-- `handleRead` opens its transaction. -/
theorem read_start (hpoint : s.reader.point = .start) (hphase : (s.ring.roles 0).Closed)
    {rest : List (RingbufferReadOperation α)} (hstep : s.readCall op rest = some s')
    (hnext : ∀ (r : Side α (RingbufferReadOperation α)) (role : RingBufferRole),
      r.ops = op :: rest → r.point = (if op.mode = .READ_LENGTH then .length else .payload) →
      r.done = s.reader.done → role.inTx = true → role.call = .idle →
      role.txSize = (s.ring.roles 0).txSize →
      ReaderInv holder writes r role (s.history.pos 0)) :
    StreamInv holder cap writes s' put := by
  obtain ⟨hclosed, hcall⟩ := hphase
  obtain ⟨t, haccess, rfl⟩ := readCall_some hstep
  rw [Stream.pending, if_pos hcall, hpoint] at haccess
  obtain ⟨ring, hring, rfl⟩ := access_some haccess
  obtain ⟨hrole, hdata, hroles⟩ := start_step hinv.ring hclosed hcall hring
  have hidle : (ring.roles 0).call = .idle := by
    rw [hrole]
    rfl
  have hresult : (ring.roles 0).result = .ok 0 := by
    rw [hrole]
    rfl
  refine read_returned hinv haccess hroles (track_pos nofun) rfl hdata hidle hresult
    (by rw [hpoint]; exact nofun) (congrArg _ hpoint) rfl ?_
  intro r hops hp hdone
  refine hnext r _ hops hp hdone ?_ hidle ?_
  · show (ring.roles 0).inTx = true
    rw [hrole]
  · show (ring.roles 0).txSize = _
    rw [hrole]
    rfl

/-- The commit, in two halves. -/
theorem read_commit (hpoint : s.reader.point = .commit) (hphase : (s.ring.roles 0).Committing)
    {rest : List (RingbufferReadOperation α)} (hstep : s.readCall op rest = some s')
    {p : Nat} (hpos : s.history.pos 0 + (s.ring.roles 0).txSize.toNat
      = p + (s.ring.roles 0).uncopied)
    (hending : ∀ role : RingBufferRole, role.call = .ending → role.txSize = 0 →
      ReaderInv holder writes s.reader role p)
    (hnext : ∀ (r : Side α (RingbufferReadOperation α)) (role : RingBufferRole),
      role.Closed → role.txSize = 0 → r.point = .start →
      (op.completed = true → r.ops = rest ∧ r.done = s.reader.done ++ [op.content]) →
      (op.completed = false → r.ops = op :: rest ∧ r.done = s.reader.done) →
      ReaderInv holder writes r role p) :
    StreamInv holder cap writes s' put := by
  obtain ⟨t, haccess, rfl⟩ := readCall_some hstep
  rw [hpoint, Stream.pending] at haccess
  rcases hphase with ⟨hopen, hcall⟩ | hcall
  · rw [if_pos hcall] at haccess
    obtain ⟨ring, hring, rfl⟩ := access_some haccess
    obtain ⟨hrole, hdata, hroles⟩ := commit_step hopen hcall hring
    have hmoved := track_commit hinv.ring hopen hcall
    have hcall' : (ring.roles 0).call = .ending := by rw [hrole]
    rw [uncopied_idle hcall] at hpos
    have hpos0 : (s.ring.track id .commitTx 0 s.history).pos 0 = p := by
      rw [hmoved]
      exact hpos
    have hpos1 : (s.ring.track id .commitTx 0 s.history).pos 1 = s.history.pos 1 := by
      rw [hmoved]
      rfl
    rw [if_neg (by rw [hcall']; exact nofun)]
    refine hinv.ofReader haccess hroles hpos1 ?_ hdata hinv.dchecks ?_
    · show s.history.pos 0 ≤ (s.ring.track id .commitTx 0 s.history).pos 0
      rw [hpos0, ← Nat.add_zero p, ← hpos]
      exact Nat.le_add_right _ _
    · show ReaderInv holder writes s.reader (ring.roles 0)
        ((s.ring.track id .commitTx 0 s.history).pos 0)
      rw [hpos0]
      refine hending _ hcall' ?_
      rw [hrole]
  · rw [if_neg (by rw [hcall]; exact nofun)] at haccess
    obtain ⟨ring, hring, rfl⟩ := access_some haccess
    obtain ⟨hrole, hdata, hroles⟩ := ending_step hcall hring
    have hin := (hinv.ring.roles 0).ending hcall
    have htx := ((hinv.ring.roles 0).closed hin).1
    have hsame : (s.ring.track id .resume 0 s.history).pos = s.history.pos := track_pos nofun
    rw [uncopied_ending hcall, htx] at hpos
    have hpos0 : (s.ring.track id .resume 0 s.history).pos 0 = p := by
      rw [hsame]
      exact hpos
    have hidle : (ring.roles 0).call = .idle := by
      rw [hrole]
      rfl
    have hclosed : (ring.roles 0).Closed := by
      refine ⟨?_, hidle⟩
      rw [hrole]
      exact hin
    have hresult : (ring.roles 0).result = .ok 0 := by
      rw [hrole]
      rfl
    have htx' : (ring.roles 0).txSize = 0 := by
      rw [hrole]
      exact htx
    rw [if_pos hidle, Stream.readReturned]
    simp only [hpoint, hresult]
    by_cases hcompleted : op.completed = true
    · rw [if_pos hcompleted]
      refine hinv.ofReader haccess hroles (congrFun hsame 1)
        (Nat.le_of_eq (congrFun hsame 0).symm) hdata hinv.dchecks ?_
      show ReaderInv holder writes _ (ring.roles 0)
        ((s.ring.track id .resume 0 s.history).pos 0)
      rw [hpos0]
      refine hnext _ _ hclosed htx' rfl (fun _ => ⟨rfl, rfl⟩) ?_
      intro hno
      exact nomatch hno.symm.trans hcompleted
    · rw [if_neg hcompleted]
      refine hinv.ofReader haccess hroles (congrFun hsame 1)
        (Nat.le_of_eq (congrFun hsame 0).symm) hdata hinv.dchecks ?_
      show ReaderInv holder writes _ (ring.roles 0)
        ((s.ring.track id .resume 0 s.history).pos 0)
      rw [hpos0]
      exact hnext _ _ hclosed htx' rfl (fun hyes => absurd hyes hcompleted)
        (fun _ => ⟨rfl, rfl⟩)

/-- The length of a frame: not all of it is there, or the payload follows. -/
theorem read_length (hsend : ∀ c ∈ writes, c.Sendable holder cap) {target : Target α}
    {todo : List (Content α)} (hops : s.reader.ops = .make target :: targets.map .make)
    (hwrites : writes = s.reader.done ++ todo)
    (hfit : ∀ p ∈ (target :: targets).zip todo, p.1.Fits p.2)
    (hpoint : s.reader.point = .length)
    (hphase : (s.ring.roles 0).inTx = true ∧ (s.ring.roles 0).Accessing .read false 4)
    (hpos : s.history.pos 0 + (s.ring.roles 0).txSize.toNat
      = (frames holder s.reader.done).length + (s.ring.roles 0).uncopied)
    (hstep : s.readCall (.make target) (targets.map .make) = some s') :
    StreamInv holder cap writes s' put := by
  obtain ⟨hopen, hacc⟩ := hphase
  obtain ⟨t, haccess, rfl⟩ := readCall_some hstep
  rw [hpoint] at haccess
  obtain ⟨base, hbase⟩ := Nat.exists_eq_add_of_le' (uncopied_le hinv.ring 0)
  have hlen : (frames holder s.reader.done).length = s.history.pos 0 + base := by omega
  have hwhole : frames holder s.reader.done ++ frames holder todo = frames holder writes := by
    rw [hwrites, frames_append]
  obtain ⟨hout, hin, hroles, hsame, -, hreader, hring⟩ :=
    access_at hinv.ring rfl hopen hacc hbase haccess
  cases hout with
  | busy hcall hacc' htx hdata =>
      rw [if_neg hcall]
      refine read_busy hinv haccess hroles hsame hreader hdata
        (.between (target :: targets) todo _ hops hwrites hfit ?_ rfl ?_)
      · rw [hpoint]
        exact ⟨hin, hacc'⟩
      · rw [htx, hlen]
        exact (Nat.add_assoc _ _ _).symm
  | failed hcall hpart hresult htx hdata =>
      refine read_returned hinv haccess hroles hsame hreader hdata hcall hresult
        (by rw [hpoint]; exact nofun) (congrArg _ hpoint) rfl ?_
      intro r hr hp hdone
      refine .between (target :: targets) todo _ hr (hdone ▸ hwrites) hfit ?_ rfl ?_
      · rw [hp]
        exact Or.inl ⟨hin, hcall⟩
      · rw [htx, hdone, hlen, uncopied_idle hcall]
        rfl
  | done k hcall hle hall hresult htx hdata hout =>
      obtain rfl : k = 4 := hall rfl
      obtain ⟨m, hresult, hm⟩ := hresult
      obtain rfl := hm nofun
      obtain ⟨hread, hfour⟩ := hinv.readNext hring hsame hwhole hlen (Nat.le_of_eq htx.symm)
      -- there is a frame
      cases todo with
      | nil => exact absurd hfour (Nat.not_succ_le_zero 3)
      | cons c rest =>
          have hc : c.Sendable holder cap := hsend c (by rw [hwrites]; simp)
          have hbytes : (t.ring.roles 0).out.take 4
              = lengthBytes (UInt32.ofNat (c.bytes holder).length) := by
            rw [hout rfl, hread, frames_cons, Content.frame, List.append_assoc]
            exact List.take_left' rfl
          obtain ⟨hreading, hdcheck, hzero⟩ := reading_of_setLength holder
            (hfit (target, c) (by simp))
          have hret : (RingbufferReadOperation.make target).returned (t.ring.roles 0).out (.ok 4)
              .length = (((RingbufferReadOperation.make target).setLength
                (c.bytes holder).length).1, .payload, 4, true) := by
            rw [RingbufferReadOperation.returned, hbytes,
              decoded_length hc hinv.ring.sized.small, ← hdcheck]
          refine read_returned hinv haccess hroles hsame hreader hdata hcall hresult
            (by rw [hpoint]; exact nofun) ((congrArg _ hpoint).trans hret) rfl ?_
          intro r hr hp hdone
          refine .within targets c rest _ _ hr (hdone ▸ hwrites) ?_ hreading ?_ rfl ?_
          · intro p hp
            exact hfit p (List.mem_cons_of_mem _ hp)
          · rw [hp]
            exact ⟨hin, fun _ => ⟨hzero, accessing_idle hcall _ _ _⟩,
              fun _ => accessing_idle hcall _ _ _⟩
          · rw [htx, hp, hdone, hzero, List.take_zero, List.append_nil, List.length_append, hlen,
              uncopied_idle hcall]
            exact (Nat.add_assoc _ _ _).symm

/-- A part of a buffer. -/
theorem read_buffer {c : Content α} {rest : List (Content α)}
    (hops : s.reader.ops = op :: targets.map .make)
    (hwrites : writes = s.reader.done ++ c :: rest)
    (hfit : ∀ p ∈ targets.zip rest, p.1.Fits p.2) (hop : op.Reading holder c)
    (hsend : c.Sendable holder cap) (hpoint : s.reader.point = .payload)
    (hopen : (s.ring.roles 0).inTx = true) (hptr : op.nopObject = none)
    (hacc : (s.ring.roles 0).Accessing .read true (UInt64.ofNat (op.len - op.bytesRead)))
    (hpos : s.history.pos 0 + (s.ring.roles 0).txSize.toNat
      = (frames holder s.reader.done ++ (lengthBytes (UInt32.ofNat (c.bytes holder).length)
          ++ (c.bytes holder).take op.bytesRead)).length + (s.ring.roles 0).uncopied)
    (hstep : s.readCall op (targets.map .make) = some s') :
    StreamInv holder cap writes s' put := by
  obtain ⟨t, haccess, rfl⟩ := readCall_some hstep
  obtain ⟨bytes, rfl⟩ : ∃ bytes, c = .buffer bytes := by
    cases c with
    | buffer bytes => exact ⟨bytes, rfl⟩
    | object a =>
        have hsome := (hop.object a rfl).1
        rw [hptr] at hsome
        exact nomatch hsome
  have hlength : op.len = bytes.length := hop.len
  have hwithin := hop.within
  have hsmall : bytes.length < 2 ^ 32 := hsend
  have hsize : (UInt64.ofNat (op.len - op.bytesRead)).toNat = op.len - op.bytesRead :=
    UInt64.toNat_ofNat_of_lt (Nat.lt_of_le_of_lt (Nat.sub_le _ _)
      (hlength ▸ Nat.lt_trans hsmall (by decide)))
  have haction : (op.call .payload).access?
      = some (.read, true, UInt64.ofNat (op.len - op.bytesRead)) := by
    rw [RingbufferReadOperation.call, hptr]
    rfl
  rw [hpoint] at haccess
  obtain ⟨base, hbase⟩ := Nat.exists_eq_add_of_le' (uncopied_le hinv.ring 0)
  generalize htaken : frames holder s.reader.done
    ++ (lengthBytes (UInt32.ofNat bytes.length) ++ bytes.take op.bytesRead) = taken at hpos
  have hlen : taken.length = s.history.pos 0 + base := by
    have hpos' : s.history.pos 0 + (s.ring.roles 0).txSize.toNat
        = taken.length + (s.ring.roles 0).uncopied := htaken ▸ hpos
    omega
  have hwhole : taken ++ (bytes.drop op.bytesRead ++ frames holder rest)
      = frames holder writes := by
    rw [hwrites, ← htaken]
    exact frames_split s.reader.done rest (.buffer bytes) op.bytesRead
  obtain ⟨hout, hin, hroles, hsame, -, hreader, hring⟩ :=
    access_at hinv.ring haction hopen hacc hbase haccess
  cases hout with
  | busy hcall hacc' htx hdata =>
      rw [if_neg hcall]
      refine read_busy hinv haccess hroles hsame hreader hdata
        (.within targets (.buffer bytes) rest op taken hops hwrites hfit hop ?_ htaken.symm ?_)
      · rw [hpoint]
        refine ⟨hin, ?_, fun _ => hacc'⟩
        rw [hptr]
        exact nofun
      · rw [htx, hlen, hpoint]
        exact (Nat.add_assoc _ _ _).symm
  | failed hcall hpart hresult htx hdata => exact nomatch hpart
  | done k hcall hle hall hresult htx hdata hout =>
      obtain ⟨m, hresult, hm⟩ := hresult
      obtain rfl := hm nofun
      rw [hsize] at hle
      obtain ⟨hread, -⟩ := hinv.readNext hring hsame hwhole hlen (Nat.le_of_eq htx.symm)
      have hbytes : (t.ring.roles 0).out.take m = (bytes.drop op.bytesRead).take m := by
        rw [hout rfl, hread]
        refine List.take_append_of_le_length ?_
        rw [List.length_drop, ← hlength]
        exact hle
      have hmore : op.ptr ++ (t.ring.roles 0).out.take m = bytes.take (op.bytesRead + m) := by
        rw [(hop.buffer bytes rfl).2, hbytes, ← List.take_add]
      have hret : op.returned (t.ring.roles 0).out (.ok m) .payload
          = ({ op with
                ptr := bytes.take (op.bytesRead + m), bytesRead := op.bytesRead + m },
              .commit, m, true) := by
        rw [RingbufferReadOperation.returned, hptr, hmore]
      refine read_returned hinv haccess hroles hsame hreader hdata hcall hresult
        (by rw [hpoint]; exact nofun) ((congrArg _ hpoint).trans hret) rfl ?_
      intro r hr hp hdone
      refine .within targets (.buffer bytes) rest _ _ hr (hdone ▸ hwrites) hfit ?_ ?_ rfl ?_
      · refine ⟨hop.mode, hop.len, ?_, ?_, nofun⟩
        · show op.bytesRead + m ≤ op.len
          omega
        · rintro bytes' heq
          obtain rfl := Content.buffer.inj heq
          exact ⟨hptr, rfl⟩
      · rw [hp]
        refine ⟨Or.inl ⟨hin, hcall⟩, ?_⟩
        intro hcompleted
        rw [RingbufferReadOperation.completed, decide_eq_true_iff] at hcompleted
        have hend : op.bytesRead + m = op.len := hcompleted.2
        simp only [RingbufferReadOperation.content, hptr, hend, hlength, List.take_length]
      · rw [htx, hp, hdone, uncopied_idle hcall]
        have htake : (bytes.take (op.bytesRead + m)).length
            = (bytes.take op.bytesRead).length + m := by
          rw [List.length_take, List.length_take]
          omega
        show _ = (frames holder s.reader.done ++ (lengthBytes (UInt32.ofNat bytes.length)
          ++ bytes.take (op.bytesRead + m))).length + 0 + 0
        rw [← htaken] at hlen
        simp only [List.length_append] at hlen ⊢
        omega

/-- A whole object is there, or nothing is taken. -/
theorem read_object {a : α} {rest : List (Content α)}
    (hops : s.reader.ops = op :: targets.map .make)
    (hwrites : writes = s.reader.done ++ .object a :: rest)
    (hfit : ∀ p ∈ targets.zip rest, p.1.Fits p.2) (hop : op.Reading holder (.object a))
    (hcap : op.len ≤ cap) (hpoint : s.reader.point = .payload)
    (hopen : (s.ring.roles 0).inTx = true) (hnop : op.nopObject.isSome = true)
    (hzero : op.bytesRead = 0)
    (hacc : (s.ring.roles 0).Accessing .access false (UInt64.ofNat op.len)) {taken : List UInt8}
    (htaken : taken = frames holder s.reader.done
      ++ (lengthBytes (UInt32.ofNat ((Content.object a).bytes holder).length)
        ++ ((Content.object a).bytes holder).take op.bytesRead))
    (hpos : s.history.pos 0 + (s.ring.roles 0).txSize.toNat
      = taken.length + (s.ring.roles 0).uncopied)
    (hstep : s.readCall op (targets.map .make) = some s') :
    StreamInv holder cap writes s' put := by
  obtain ⟨t, haccess, rfl⟩ := readCall_some hstep
  obtain ⟨b, hobject⟩ := Option.isSome_iff_exists.mp hnop
  have hsmall := hinv.ring.sized.small
  have hsize : (UInt64.ofNat op.len).toNat = op.len := toNat_ofNat_small (by omega)
  have haction : (op.call .payload).access? = some (.access, false, UInt64.ofNat op.len) := by
    rw [RingbufferReadOperation.call, hobject]
    rfl
  rw [hpoint] at haccess
  obtain ⟨base, hbase⟩ := Nat.exists_eq_add_of_le' (uncopied_le hinv.ring 0)
  have hlen : taken.length = s.history.pos 0 + base := by omega
  obtain ⟨hout, hin, hroles, hsame, -, hreader, hring⟩ :=
    access_at hinv.ring haction hopen hacc hbase haccess
  cases hout with
  | busy hcall hacc' htx hdata =>
      rw [if_neg hcall]
      refine read_busy hinv haccess hroles hsame hreader hdata
        (.within targets (.object a) rest op taken hops hwrites hfit hop ?_ htaken ?_)
      · rw [hpoint]
        refine ⟨hin, fun _ => ⟨hzero, hacc'⟩, ?_⟩
        rw [hobject]
        exact nofun
      · rw [htx, hlen, hpoint]
        exact (Nat.add_assoc _ _ _).symm
  | failed hcall hpart hresult htx hdata hsome =>
      refine read_returned hinv haccess hroles hsame hreader hdata hcall hresult
        (by rw [hpoint]; exact nofun) (congrArg _ hpoint) rfl ?_
      intro r hr hp hdone
      refine .within targets (.object a) rest op taken hr (hdone ▸ hwrites) hfit hop ?_
        (hdone ▸ htaken) ?_
      · rw [hp]
        refine ⟨Or.inl ⟨hin, hcall⟩, ?_⟩
        -- an empty object is there at once
        intro hcompleted
        rw [RingbufferReadOperation.completed, decide_eq_true_iff] at hcompleted
        rw [← hcompleted.2, hzero] at hsome
        exact absurd rfl hsome
      · rw [htx, hlen, hp, uncopied_idle hcall]
        rfl
  | done k hcall hle hall hresult htx hdata _ =>
      obtain rfl : k = op.len := (hall rfl).trans hsize
      obtain ⟨m, hresult, -⟩ := hresult
      have hret : op.returned (t.ring.roles 0).out (.ok m) .payload = (op, .parse, 0, true) := by
        rw [RingbufferReadOperation.returned, hobject]
      refine read_returned hinv haccess hroles hsame hreader hdata hcall hresult
        (by rw [hpoint]; exact nofun) ((congrArg _ hpoint).trans hret) rfl ?_
      intro r hr hp hdone
      refine .within targets (.object a) rest op taken hr (hdone ▸ hwrites) hfit hop ?_
        (hdone ▸ htaken) ?_
      · rw [hp]
        refine ⟨hin, hcall, hnop, hzero, ?_⟩
        rw [htx]
        exact Nat.le_add_left _ _
      · rw [htx, hlen, hp, uncopied_idle hcall]
        exact (Nat.add_assoc _ _ _).symm

/-- The object is parsed from the bytes of its frame. -/
theorem read_parse {a : α} {rest : List (Content α)}
    (hwrites : writes = s.reader.done ++ .object a :: rest)
    (hfit : ∀ p ∈ targets.zip rest, p.1.Fits p.2) (hop : op.Reading holder (.object a))
    (hexact : holder.Exact a)
    (hphase : PayloadPhase (.object a) op (s.ring.roles 0) .parse) {taken : List UInt8}
    (htaken : taken = frames holder s.reader.done
      ++ (lengthBytes (UInt32.ofNat ((Content.object a).bytes holder).length)
        ++ ((Content.object a).bytes holder).take op.bytesRead))
    (hpos : s.history.pos 0 + (s.ring.roles 0).txSize.toNat
      = taken.length + (s.ring.roles 0).uncopied + op.len) :
    StreamInv holder cap writes
      (s.setReader (targets.map .make) (op.parsed holder
        (((addresses (s.ring.roles 0).granted).drop
          ((s.ring.roles 0).txSize.toNat - op.len)).map s.ring.data))) put := by
  obtain ⟨hopen, hcall, hnop, hzero, hle⟩ := hphase
  obtain ⟨b, hobject⟩ := Option.isSome_iff_exists.mp hnop
  rw [uncopied_idle hcall, Nat.add_zero] at hpos
  have hwhole : taken ++ (((Content.object a).bytes holder).drop op.bytesRead
      ++ frames holder rest) = frames holder writes := by
    rw [hwrites, htaken]
    exact frames_split s.reader.done rest (.object a) op.bytesRead
  obtain ⟨base, hbase⟩ := Nat.exists_eq_add_of_le' hle
  have hlen : taken.length = s.history.pos 0 + base := by omega
  obtain ⟨hread, -⟩ := hinv.readNext hinv.ring rfl hwhole hlen (Nat.le_of_eq hbase.symm)
  have hlength : op.len = ((Content.object a).bytes holder).length := hop.len
  have hbytes : ((addresses (s.ring.roles 0).granted).drop
      ((s.ring.roles 0).txSize.toNat - op.len)).map s.ring.data
      = (Content.object a).bytes holder := by
    rw [(hinv.ring.roles 0).granted, hbase, Nat.add_sub_cancel, ← cells_append,
      List.drop_left' (cells_length _ _ _)]
    refine hread.trans ?_
    rw [hzero, List.drop_zero, hlength]
    exact List.take_left' rfl
  have hparsed : op.parsed holder ((Content.object a).bytes holder)
      = ({ op with nopObject := some a, bytesRead := op.bytesRead + op.len }, .commit,
          op.len) := by
    rw [RingbufferReadOperation.parsed, hobject, Option.map_some]
    rw [show holder.read ((Content.object a).bytes holder) b = (.None, a) from hexact.parsed b]
  rw [hbytes, hparsed]
  refine ⟨hinv.ring, hinv.shows, hinv.writer, ?_, hinv.dchecks⟩
  refine .within targets (.object a) rest
    { op with nopObject := some a, bytesRead := op.bytesRead + op.len } _ rfl hwrites hfit ?_ ?_
    rfl ?_
  · refine ⟨hop.mode, hop.len, ?_, nofun, ?_⟩
    · show op.bytesRead + op.len ≤ op.len
      rw [hzero, Nat.zero_add]
    · rintro a' heq
      obtain rfl := Content.object.inj heq
      refine ⟨rfl, Or.inr ⟨?_, rfl⟩⟩
      show op.bytesRead + op.len = op.len
      rw [hzero, Nat.zero_add]
  · exact ⟨Or.inl ⟨hopen, hcall⟩, fun _ => rfl⟩
  · show s.history.pos 0 + (s.ring.roles 0).txSize.toNat
      = (frames holder s.reader.done
        ++ (lengthBytes (UInt32.ofNat ((Content.object a).bytes holder).length)
          ++ ((Content.object a).bytes holder).take (op.bytesRead + op.len))).length
        + (s.ring.roles 0).uncopied + 0
    rw [uncopied_idle hcall, hpos, htaken, hzero, Nat.zero_add, hlength, List.take_length,
      List.take_zero]
    simp only [List.length_append, List.length_nil]
    omega

/-- What is counted within a call of `handleRead` does not matter. -/
theorem rewound : StreamInv holder cap writes
    { s with reader := { s.reader with bytesNow := 0 } } put := by
  refine ⟨hinv.ring, hinv.shows, hinv.writer, ?_, hinv.dchecks⟩
  cases hinv.reader with
  | between targets todo taken hops hwrites hfit hphase htaken hpos =>
      exact .between targets todo taken hops hwrites hfit hphase htaken hpos
  | within targets c rest op taken hops hwrites hfit hop hphase htaken hpos =>
      exact .within targets c rest op taken hops hwrites hfit hop hphase htaken hpos

/-- A transaction for a length begins. -/
theorem read_length_start {target : Target α} {todo : List (Content α)}
    (hwrites : writes = s.reader.done ++ todo)
    (hfit : ∀ p ∈ (target :: targets).zip todo, p.1.Fits p.2) (hpoint : s.reader.point = .start)
    (hclosed : (s.ring.roles 0).Closed)
    (hpos : s.history.pos 0 + (s.ring.roles 0).txSize.toNat
      = (frames holder s.reader.done).length + (s.ring.roles 0).uncopied)
    (hstep : s.readCall (.make target) (targets.map .make) = some s') :
    StreamInv holder cap writes s' put := by
  refine read_start hinv hpoint hclosed hstep ?_
  intro r role hr hp hdone hin hidle htx
  refine .between (target :: targets) todo _ hr (hdone ▸ hwrites) hfit ?_ rfl ?_
  · rw [hp, make_mode]
    exact ⟨hin, accessing_idle hidle _ _ _⟩
  · rw [uncopied_idle hclosed.2] at hpos
    rw [htx, hdone, uncopied_idle hidle]
    exact hpos

/-- A transaction ends before the length was there. -/
theorem read_length_commit {target : Target α} {todo : List (Content α)}
    (hops : s.reader.ops = .make target :: targets.map .make)
    (hwrites : writes = s.reader.done ++ todo)
    (hfit : ∀ p ∈ (target :: targets).zip todo, p.1.Fits p.2) (hpoint : s.reader.point = .commit)
    (hcommitting : (s.ring.roles 0).Committing)
    (hpos : s.history.pos 0 + (s.ring.roles 0).txSize.toNat
      = (frames holder s.reader.done).length + (s.ring.roles 0).uncopied)
    (hstep : s.readCall (.make target) (targets.map .make) = some s') :
    StreamInv holder cap writes s' put := by
  refine read_commit hinv hpoint hcommitting hstep hpos ?_ ?_
  · intro role hending htx
    refine .between (target :: targets) todo _ hops hwrites hfit ?_ rfl ?_
    · rw [hpoint]
      exact Or.inr hending
    · rw [uncopied_ending hending, htx]
      rfl
  · intro r role hclosed htx hp _ hnot
    have hmode : (RingbufferReadOperation.make target).completed = false := by
      rw [RingbufferReadOperation.completed, make_mode]
      rfl
    obtain ⟨hr, hdone⟩ := hnot hmode
    refine .between (target :: targets) todo _ hr (hdone ▸ hwrites) hfit ?_ rfl ?_
    · rw [hp]
      exact hclosed
    · rw [uncopied_idle hclosed.2, htx, hdone]
      rfl

section Payload

variable {c : Content α} {rest : List (Content α)} {taken : List UInt8}
  (hops : s.reader.ops = op :: targets.map .make) (hwrites : writes = s.reader.done ++ c :: rest)
  (hfit : ∀ p ∈ targets.zip rest, p.1.Fits p.2) (hop : op.Reading holder c)
  (htaken : taken = frames holder s.reader.done
    ++ (lengthBytes (UInt32.ofNat (c.bytes holder).length)
      ++ (c.bytes holder).take op.bytesRead))

include hwrites hfit hop htaken

/-- A transaction for the rest of a payload begins. -/
theorem read_payload_start (hpoint : s.reader.point = .start) (hclosed : (s.ring.roles 0).Closed)
    (hcompleted : op.completed = false)
    (hpos : s.history.pos 0 + (s.ring.roles 0).txSize.toNat
      = taken.length + (s.ring.roles 0).uncopied)
    (hstep : s.readCall op (targets.map .make) = some s') :
    StreamInv holder cap writes s' put := by
  refine read_start hinv hpoint hclosed hstep ?_
  intro r role hr hp hdone hin hidle htx
  rw [hop.mode] at hp
  refine .within targets c rest op taken hr (hdone ▸ hwrites) hfit hop ?_ (hdone ▸ htaken) ?_
  · rw [hp]
    refine ⟨hin, fun hnop => ⟨?_, accessing_idle hidle _ _ _⟩,
      fun _ => accessing_idle hidle _ _ _⟩
    -- an object is read whole or not at all
    rw [RingbufferReadOperation.completed, decide_eq_false_iff_not] at hcompleted
    cases c with
    | buffer bytes =>
        rw [(hop.buffer bytes rfl).1] at hnop
        exact absurd hnop (by simp)
    | object a =>
        rcases (hop.object a rfl).2 with hzero | ⟨hall, -⟩
        · exact hzero
        · exact absurd ⟨hop.mode, hall⟩ hcompleted
  · rw [uncopied_idle hclosed.2] at hpos
    rw [htx, hp, uncopied_idle hidle]
    exact hpos

include hops

/-- More of a payload is asked of the ring. -/
theorem read_payload (hc : c.Sendable holder cap) (hpoint : s.reader.point = .payload)
    (hphase : PayloadPhase c op (s.ring.roles 0) .payload)
    (hpos : s.history.pos 0 + (s.ring.roles 0).txSize.toNat
      = taken.length + (s.ring.roles 0).uncopied)
    (hstep : (if (s.ring.roles 0).call = .idle ∧ op.nopObject.isSome = true
        ∧ s.ring.header.kDataPoolByteSize.toNat < op.len
      then some (s.setReader (targets.map .make) (op, .threw .assert, 0))
      else s.readCall op (targets.map .make)) = some s') :
    StreamInv holder cap writes s' put := by
  obtain ⟨hopen, hnop, hptr⟩ := hphase
  have hsize : s.ring.header.kDataPoolByteSize.toNat = cap := by
    rw [hinv.ring.sized.size, toNat_ofNat_small hinv.ring.sized.small]
  cases c with
  | buffer bytes =>
      have hnone := (hop.buffer bytes rfl).1
      rw [hnone, if_neg (by rintro ⟨-, hno, -⟩; exact absurd hno (by simp))] at hstep
      subst htaken
      exact read_buffer hinv hops hwrites hfit hop hc hpoint hopen hnone (hptr hnone) hpos hstep
  | object a =>
      -- it fits the ring, so nothing is thrown
      have hsome := (hop.object a rfl).1
      have hlength : op.len = (holder.write a (holder.getSize a)).1.length := hop.len
      have hcap : op.len ≤ cap := by
        rw [hlength, hc.2.size]
        exact hc.1
      obtain ⟨hzero, hacc⟩ := hnop hsome
      rw [hsize, if_neg (by rintro ⟨-, -, hlt⟩; omega)] at hstep
      exact read_object hinv hops hwrites hfit hop hcap hpoint hopen hsome hzero hacc htaken hpos
        hstep

/-- A transaction ends, with the payload or before it was there. -/
theorem read_payload_commit (hpoint : s.reader.point = .commit)
    (hphase : PayloadPhase c op (s.ring.roles 0) .commit)
    (hpos : s.history.pos 0 + (s.ring.roles 0).txSize.toNat
      = taken.length + (s.ring.roles 0).uncopied)
    (hstep : s.readCall op (targets.map .make) = some s') :
    StreamInv holder cap writes s' put := by
  obtain ⟨hcommitting, hcontent⟩ := hphase
  refine read_commit hinv hpoint hcommitting hstep hpos ?_ ?_
  · intro role hending htx
    refine .within targets c rest op taken hops hwrites hfit hop ?_ htaken ?_
    · rw [hpoint]
      exact ⟨Or.inr hending, hcontent⟩
    · rw [uncopied_ending hending, htx, hpoint]
      rfl
  · intro r role hclosed htx hp hyes hnot
    cases hcompleted : op.completed with
    | true =>
        -- the frame has been taken whole
        obtain ⟨hr, hdone⟩ := hyes hcompleted
        rw [hcontent hcompleted] at hdone
        rw [RingbufferReadOperation.completed, decide_eq_true_iff] at hcompleted
        refine .between targets rest _ hr ?_ hfit ?_ rfl ?_
        · rw [hdone, hwrites, List.append_assoc]
          rfl
        · rw [hp]
          exact hclosed
        · rw [hcompleted.2, hop.len, List.take_length] at htaken
          rw [hdone, frames_append, frames_cons, htaken, uncopied_idle hclosed.2, htx]
          simp only [Content.frame, List.length_append]
          rfl
    | false =>
        obtain ⟨hr, hdone⟩ := hnot hcompleted
        refine .within targets c rest op taken hr (hdone ▸ hwrites) hfit hop ?_
          (hdone ▸ htaken) ?_
        · rw [hp]
          exact ⟨hclosed, hcompleted⟩
        · rw [uncopied_idle hclosed.2, htx, hp]
          rfl

end Payload

end Reader

/-- **A step of the reader.** -/
theorem StreamInv.readStep (hinv : StreamInv holder cap writes s put)
    (hsend : ∀ c ∈ writes, c.Sendable holder cap) (hstep : s.readStep holder = some s') :
    StreamInv holder cap writes s' put := by
  rw [Stream.readStep] at hstep
  cases hinv.reader with
  | between targets todo taken hops hwrites hfit hphase htaken hpos =>
      subst htaken
      cases targets with
      | nil =>
          rw [hops] at hstep
          exact absurd hstep (by simp)
      | cons target targets =>
          rw [hops, List.map_cons] at hstep
          dsimp only at hstep
          cases hpoint : s.reader.point with
          | start =>
              rw [hpoint] at hphase
              exact read_length_start (rewound hinv) hwrites hfit hpoint hphase hpos
                (by simpa only [hpoint] using hstep)
          | length =>
              rw [hpoint] at hstep hphase
              exact read_length hinv hsend hops hwrites hfit hpoint hphase hpos hstep
          | commit =>
              rw [hpoint] at hstep hphase
              exact read_length_commit hinv hops hwrites hfit hpoint hphase hpos hstep
          | _ =>
              rw [hpoint] at hphase
              exact hphase.elim
  | within targets c rest op taken hops hwrites hfit hop hphase htaken hpos =>
      have hc : c.Sendable holder cap := hsend c (by rw [hwrites]; simp)
      rw [hops] at hstep
      dsimp only at hstep
      cases hpoint : s.reader.point with
      | start =>
          rw [hpoint] at hphase hpos
          exact read_payload_start (rewound hinv) hwrites hfit hop htaken hpoint hphase.1 hphase.2
            hpos (by simpa only [hpoint] using hstep)
      | payload =>
          rw [hpoint] at hstep hphase hpos
          exact read_payload hinv hops hwrites hfit hop htaken hc hpoint hphase hpos hstep
      | parse =>
          rw [hpoint] at hstep hphase hpos
          obtain rfl := Option.some.inj hstep
          cases c with
          | buffer bytes =>
              have hsome := hphase.2.2.1
              rw [(hop.buffer bytes rfl).1] at hsome
              exact absurd hsome (by simp)
          | object a => exact read_parse hinv hwrites hfit hop hc.2 hphase htaken hpos
      | commit =>
          rw [hpoint] at hstep hphase hpos
          exact read_payload_commit hinv hops hwrites hfit hop htaken hpoint hphase hpos hstep
      | _ =>
          rw [hpoint] at hphase
          exact hphase.elim

-- ── What every run guarantees ────────────────────────────────────────────────

/-- A call can always be made or go on. -/
theorem access_total (s : Stream α) (i : Fin 2) {action : Action}
    (hresume : action ≠ .resume) (hpoke : ∀ offset byte, action ≠ .poke offset byte) :
    ∃ t, s.access i (s.pending i action) = some t := by
  have hring : ∃ ring, s.ring.step id (s.pending i action) i = some ring := by
    rw [Stream.pending]
    cases hcall : (s.ring.roles i).call with
    | idle =>
        rw [if_pos rfl]
        cases action with
        | resume => exact absurd rfl hresume
        | poke offset byte => exact absurd rfl (hpoke offset byte)
        | _ =>
            unfold RingBuffer.step
            simp only [hcall]
            exact ⟨_, rfl⟩
    | _ =>
        rw [if_neg (by simp)]
        unfold RingBuffer.step
        simp only [hcall]
        exact ⟨_, rfl⟩
  obtain ⟨ring, hring⟩ := hring
  rw [Stream.access, hring]
  exact ⟨_, rfl⟩

/-- The writer never stands still within `handleWrite`. -/
theorem StreamInv.writeStep_total (hinv : StreamInv holder cap writes s put)
    (hops : s.writer.ops ≠ []) : ∃ s', s.writeStep holder = some s' := by
  cases hinv.writer with
  | finished hnil => exact absurd hnil hops
  | front c rest op hops hwrites hop hphase hput hpos =>
      have hcall : ∀ t : Stream α,
          ∃ s', t.writeCall holder op (rest.map (.make holder)) = some s' := by
        intro t
        have hresume : op.call t.writer.point ≠ .resume
            ∧ ∀ offset byte, op.call t.writer.point ≠ .poke offset byte := by
          cases t.writer.point <;> cases hobject : op.nopObject <;>
            simp [RingbufferWriteOperation.call, hobject]
        obtain ⟨t', ht'⟩ := access_total t 1 hresume.1 hresume.2
        rw [Stream.writeCall, ht']
        exact ⟨_, rfl⟩
      rw [Stream.writeStep, hops]
      cases hpoint : s.writer.point with
      | start => exact hcall _
      | payload =>
          dsimp only
          split
          · exact ⟨_, rfl⟩
          · exact hcall _
      | fill offset bytes status =>
          cases bytes with
          | nil => exact ⟨_, rfl⟩
          | cons b bytes =>
              rw [hpoint] at hphase
              obtain ⟨hopen, hidle, -, -, -, -, hoffset⟩ := hphase
              rw [List.length_cons] at hoffset
              have hring : ∃ ring, s.ring.step id (.poke offset b) 1 = some ring := by
                unfold RingBuffer.step
                simp only [hidle, RingBuffer.poke]
                rw [if_neg (by rw [hopen]; simp), (hinv.ring.roles 1).granted,
                  cells_getElem? (by omega)]
                exact ⟨_, rfl⟩
              obtain ⟨ring, hring⟩ := hring
              dsimp only
              rw [Stream.access, hring]
              exact ⟨_, rfl⟩
      | threw e =>
          rw [hpoint] at hphase
          exact hphase.elim
      | _ => exact hcall _

/-- Neither does the reader. -/
theorem StreamInv.readStep_total (hinv : StreamInv holder cap writes s put)
    (hops : s.reader.ops ≠ []) : ∃ s', s.readStep holder = some s' := by
  have hcall : ∀ (t : Stream α) (op : RingbufferReadOperation α)
      (rest : List (RingbufferReadOperation α)), ∃ s', t.readCall op rest = some s' := by
    intro t op rest
    have hresume : op.call t.reader.point ≠ .resume
        ∧ ∀ offset byte, op.call t.reader.point ≠ .poke offset byte := by
      cases t.reader.point <;> cases hobject : op.nopObject <;>
        simp [RingbufferReadOperation.call, hobject]
    obtain ⟨t', ht'⟩ := access_total t 0 hresume.1 hresume.2
    rw [Stream.readCall, ht']
    exact ⟨_, rfl⟩
  have hpoint : ∀ e, s.reader.point ≠ .threw e := by
    intro e he
    cases hinv.reader with
    | between targets todo taken hops hwrites hfit hphase htaken hpos =>
        rw [he] at hphase
        exact hphase
    | within targets c rest op taken hops hwrites hfit hop hphase htaken hpos =>
        rw [he] at hphase
        exact hphase
  obtain ⟨op, rest, hcons⟩ := List.exists_cons_of_ne_nil hops
  rw [Stream.readStep, hcons]
  cases hp : s.reader.point with
  | threw e => exact absurd hp (hpoint e)
  | parse => exact ⟨_, rfl⟩
  | payload =>
      dsimp only
      split
      · exact ⟨_, rfl⟩
      · exact hcall _ _ _
  | _ => exact hcall _ _ _

/-- A copy is never larger than what its call asked for. -/
theorem uncopied_le_size {role : RingBufferRole} {use : Use} {allowPartial : Bool}
    {size : UInt64} (hacc : role.Accessing use allowPartial size) :
    role.uncopied ≤ size.toNat ∧ (use = .access → role.uncopied = 0) := by
  cases hcall : role.call with
  | copying use' buffers =>
      simp only [RingBufferRole.Accessing, hcall] at hacc
      obtain ⟨rfl, huse, hle, -⟩ := hacc
      simp only [RingBufferRole.uncopied, hcall]
      exact ⟨hle, fun hno => absurd hno huse⟩
  | _ =>
      simp only [RingBufferRole.uncopied, hcall]
      exact ⟨Nat.zero_le _, fun _ => trivial⟩

/-- The reader stays within the frame of its front operation. -/
theorem StreamInv.reader_bound (hinv : StreamInv holder cap writes s put) :
    s.reader.done <+: writes
      ∧ s.history.pos 0 + (s.ring.roles 0).txSize.toNat
        ≤ (frames holder (writes.take (s.reader.done.length + 1))).length := by
  cases hinv.reader with
  | between targets todo taken hops hwrites hfit hphase htaken hpos =>
      refine ⟨⟨todo, hwrites.symm⟩, ?_⟩
      have hfour : (s.ring.roles 0).uncopied ≤ 4 := by
        cases hpoint : s.reader.point with
        | start =>
            rw [hpoint] at hphase
            rw [uncopied_idle hphase.2]
            exact Nat.zero_le _
        | length =>
            rw [hpoint] at hphase
            exact (uncopied_le_size hphase.2).1
        | commit =>
            rw [hpoint] at hphase
            rcases hphase with ⟨-, hcall⟩ | hcall
            · rw [uncopied_idle hcall]
              exact Nat.zero_le _
            · rw [uncopied_ending hcall]
              exact Nat.zero_le _
        | _ =>
            rw [hpoint] at hphase
            exact hphase.elim
      cases todo with
      | nil =>
          -- without a frame there is nothing to be granted
          obtain ⟨hpart, hput⟩ := hinv.put_spec
          have hwithin := (hinv.ring.roles 0).within
          have hlimit : limit cap s.history.pos (id 0) = s.history.pos 1 := limit_reader _ _
          have hle : put.length ≤ (frames holder writes).length := hpart.length_le
          rw [hlimit] at hwithin
          have htake : writes.take (s.reader.done.length + 1) = writes := by
            refine List.take_of_length_le ?_
            rw [hwrites, List.append_nil]
            exact Nat.le_succ _
          rw [htake]
          exact Nat.le_trans hwithin (Nat.le_trans hput hle)
      | cons c rest =>
          have htake : writes.take (s.reader.done.length + 1) = s.reader.done ++ [c] := by
            rw [hwrites, List.take_append]
            simp
          rw [htake, frames_append, frames_cons, hpos, htaken]
          simp only [List.length_append, Content.frame]
          have hheader : (lengthBytes (UInt32.ofNat (c.bytes holder).length)).length = 4 := rfl
          omega
  | within targets c rest op taken hops hwrites hfit hop hphase htaken hpos =>
      refine ⟨⟨c :: rest, hwrites.symm⟩, ?_⟩
      have htake : writes.take (s.reader.done.length + 1) = s.reader.done ++ [c] := by
        rw [hwrites, List.take_append]
        simp
      have hlength := hop.len
      have hwithin := hop.within
      have hleft : (s.ring.roles 0).uncopied + op.unparsed s.reader.point
          ≤ op.len - op.bytesRead := by
        cases hpoint : s.reader.point with
        | start =>
            rw [hpoint] at hphase
            rw [uncopied_idle hphase.1.2]
            exact Nat.zero_le _
        | payload =>
            rw [hpoint] at hphase
            obtain ⟨-, hnop, hptr⟩ := hphase
            show (s.ring.roles 0).uncopied + 0 ≤ _
            cases hobject : op.nopObject with
            | none =>
                refine Nat.le_trans (uncopied_le_size (hptr hobject)).1 ?_
                rw [UInt64.toNat_ofNat']
                exact Nat.mod_le _ _
            | some a =>
                obtain ⟨-, hacc⟩ := hnop (by rw [hobject]; rfl)
                rw [(uncopied_le_size hacc).2 rfl]
                exact Nat.zero_le _
        | parse =>
            rw [hpoint] at hphase
            rw [uncopied_idle hphase.2.1, hphase.2.2.2.1]
            exact Nat.le_of_eq (Nat.zero_add _)
        | commit =>
            rw [hpoint] at hphase
            rcases hphase.1 with ⟨-, hcall⟩ | hcall
            · rw [uncopied_idle hcall]
              exact Nat.zero_le _
            · rw [uncopied_ending hcall]
              exact Nat.zero_le _
        | _ =>
            rw [hpoint] at hphase
            exact hphase.elim
      have hread : ((c.bytes holder).take op.bytesRead).length = op.bytesRead := by
        rw [List.length_take, ← hlength]
        exact Nat.min_eq_left hwithin
      rw [htake, frames_append, frames_cons, hpos, htaken]
      simp only [List.length_append, Content.frame, hread]
      omega

/-- A new ring satisfies the invariant. -/
theorem streamInv_make {minDataByteSize : UInt64} (data : Nat → UInt8)
    (hsized : Sized (RingBufferHeader.make 2 minDataByteSize) cap) {reads : List (Target α)}
    (hfit : ∀ p ∈ reads.zip writes, p.1.Fits p.2) :
    StreamInv holder cap writes (.make holder minDataByteSize data writes reads) [] := by
  refine ⟨ringInv_make data hsized, Shows.nil _ _ _, ?_, ?_, rfl⟩
  · exact .next writes rfl rfl rfl ⟨rfl, rfl⟩ rfl rfl rfl
  · exact .between reads writes [] rfl rfl hfit ⟨rfl, rfl⟩ rfl rfl

/-- **Every run.** -/
theorem reachable_streamInv {minDataByteSize : UInt64} {reads : List (Target α)}
    (hs : s.Reachable holder minDataByteSize writes reads)
    (hsend : ∀ c ∈ writes, c.Sendable holder (nextPow2 minDataByteSize).toNat)
    (hfit : ∀ p ∈ reads.zip writes, p.1.Fits p.2) :
    ∃ put, StreamInv holder (nextPow2 minDataByteSize).toNat writes s put := by
  induction hs with
  | make data haccepted =>
      obtain ⟨cap, -, hsized⟩ := sized_make haccepted
      have hcap : (nextPow2 minDataByteSize).toNat = cap := by
        have hsize : nextPow2 minDataByteSize = UInt64.ofNat cap := hsized.size
        rw [hsize, toNat_ofNat_small hsized.small]
      rw [hcap]
      exact ⟨[], streamInv_make data hsized hfit⟩
  | write _ hstep ih =>
      obtain ⟨put, hinv⟩ := ih
      exact hinv.writeStep hsend hstep
  | read _ hstep ih =>
      obtain ⟨put, hinv⟩ := ih
      exact ⟨put, hinv.readStep hsend hstep⟩

end Steps

/-- What holds of a stream at any moment. -/
structure StreamGuarantee (writes : List (Content α)) (s : Stream α) : Prop where
  /-- Operations complete in order; the `k`-th read that completes yields the content of
      the `k`-th write. -/
  written : s.writer.done <+: writes
  read : s.reader.done <+: writes
  /-- What the reader has consumed, and what it holds in its transaction, ends within
      the frame of its front operation. -/
  within : s.history.pos 0 + (s.ring.roles 0).txSize.toNat
    ≤ (frames holder (writes.take (s.reader.done.length + 1))).length
  /-- Neither side throws or fails a check, and neither can get stuck. -/
  writer : (∀ e, s.writer.point ≠ .threw e)
    ∧ (s.writer.ops ≠ [] → ∃ s', s.writeStep holder = some s')
  reader : (∀ e, s.reader.point ≠ .threw e) ∧ s.reader.dchecks = true
    ∧ (s.reader.ops ≠ [] → ∃ s', s.readStep holder = some s')

/-- **Framed streams.**  On a ring of any size, for any writes and reads of matching
    kinds and any interleaving of the two sides. -/
theorem framed_streams {minDataByteSize : UInt64} {writes : List (Content α)}
    {reads : List (Target α)} {s : Stream α}
    (hs : s.Reachable holder minDataByteSize writes reads)
    (hsend : ∀ c ∈ writes, c.Sendable holder (nextPow2 minDataByteSize).toNat)
    (hfit : ∀ p ∈ reads.zip writes, p.1.Fits p.2) : StreamGuarantee holder writes s := by
  obtain ⟨put, hinv⟩ := reachable_streamInv hs hsend hfit
  obtain ⟨hread, hwithin⟩ := hinv.reader_bound
  refine ⟨?_, hread, hwithin, ⟨?_, hinv.writeStep_total⟩, ?_, hinv.dchecks, hinv.readStep_total⟩
  · cases hinv.writer with
    | finished hops hpoint hdone hclosed hput hpos => exact hdone ▸ List.prefix_refl _
    | front c rest op hops hwrites hop hphase hput hpos => exact ⟨c :: rest, hwrites.symm⟩
  · intro e he
    cases hinv.writer with
    | finished hops hpoint hdone hclosed hput hpos => exact nomatch hpoint.symm.trans he
    | front c rest op hops hwrites hop hphase hput hpos =>
        rw [he] at hphase
        exact hphase
  · intro e he
    cases hinv.reader with
    | between targets todo taken hops hwrites hfit hphase htaken hpos =>
        rw [he] at hphase
        exact hphase
    | within targets c rest op taken hops hwrites hfit hop hphase htaken hpos =>
        rw [he] at hphase
        exact hphase

/-- The two sides take turns. -/
def Stream.turns : Nat → Stream α → Stream α
  | 0, s => s
  | n + 1, s =>
      let s := (s.writeStep holder).getD s
      Stream.turns n ((s.readStep holder).getD s)

/-- Turns of both sides lead to a stream that can be reached. -/
theorem Stream.Reachable.turns {minDataByteSize : UInt64} {writes : List (Content α)}
    {reads : List (Target α)} (n : Nat) {s : Stream α}
    (hs : s.Reachable holder minDataByteSize writes reads) :
    (Stream.turns holder n s).Reachable holder minDataByteSize writes reads := by
  induction n generalizing s with
  | zero => exact hs
  | succ n ih =>
      have hwrite : ((s.writeStep holder).getD s).Reachable holder minDataByteSize writes reads := by
        cases hstep : s.writeStep holder with
        | none => exact hs
        | some s' => exact hs.write hstep
      refine ih ?_
      generalize (s.writeStep holder).getD s = t at hwrite
      cases hstep : t.readStep holder with
      | none => exact hwrite
      | some t' => exact hwrite.read hstep

end Stream

/-- How libnop encodes a byte. -/
def sampleHolder : AbstractNopHolder UInt8 where
  getSize a := if a < 128 then 1 else 2
  write a n :=
    let bytes := if a < 128 then [a] else [128, a]
    if n < bytes.length then ([], .WriteLimitReached) else (bytes, .None)
  read bytes a :=
    match bytes with
    | [] => (.ReadLimitReached, a)
    | b :: rest =>
        if b < 128 then (.None, b)
        else match rest with
          | [] => (.ReadLimitReached, a)
          | c :: _ => if b = 128 then (.None, c) else (.Other, a)

/-- A buffer larger than the ring, an object, and an empty buffer. -/
def sampleWrites : List (Content UInt8) :=
  [.buffer [1, 2, 3, 4, 5, 6, 7, 8, 9, 10, 11], .object 200, .buffer []]

/-- A small ring after some turns of both sides. -/
def sampleStream : Stream UInt8 :=
  .turns sampleHolder 80
    (.make sampleHolder 8 (fun _ => 0) sampleWrites [.auto, .nopObject 0, .ptr 0])

/-- All three go through a ring of eight bytes. -/
theorem framed_streams_small :
    sampleStream.reader.done = sampleWrites
      ∧ StreamGuarantee sampleHolder sampleWrites sampleStream := by
  have hdone : sampleStream.reader.done = sampleWrites := by decide +kernel
  have haccepted : (RingBufferHeader.make 2 8).Accepted :=
    ⟨by decide +kernel, by decide +kernel, by decide +kernel⟩
  have hsize : (nextPow2 8).toNat = 8 := by decide +kernel
  refine ⟨hdone, framed_streams sampleHolder
    ((Stream.Reachable.make (fun _ => 0) haccepted).turns sampleHolder 80) ?_ ?_⟩
  · rw [hsize]
    intro c hc
    simp only [sampleWrites, List.mem_cons, List.not_mem_nil, or_false] at hc
    rcases hc with rfl | rfl | rfl
    · show 11 < 2 ^ 32
      decide
    · exact ⟨by decide, by decide, by decide, fun b => rfl⟩
    · show 0 < 2 ^ 32
      decide
  · intro p hp
    simp only [sampleWrites, List.zip_cons_cons, List.zip_nil_right, List.mem_cons,
      List.not_mem_nil, or_false] at hp
    rcases hp with rfl | rfl | rfl
    · trivial
    · trivial
    · rfl

end TpRing
