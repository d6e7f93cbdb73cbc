import Mathlib.Tactic.Common
import Tensorpipe.RingStreamProofs

/-! # How far a call of a reader or a writer gets

    `framed_streams` says that what goes over the ring is right; here it is said when
    nothing more goes.  The operations of the two sides differ in what they do with the
    bytes; in how many they move they are alike, and an `Extent` is what they have in
    common.

    A call LOOKS at the marker of the other side in the second step of each access.  From
    that look on, until the other side commits, the call knows what it can still get: it
    completes its operation, or there is less than the operation wants. -/

namespace TpRing

open TpCursorRing

-- ── What an access finds ─────────────────────────────────────────────────────

/-- The bytes that a role can still be granted. -/
def available {n : Nat} (cap : Nat) (pos : Fin (n + 1) → Nat) (r : Fin (n + 1))
    (role : RingBufferRole) : Nat :=
  limit cap pos r - (pos r + role.txSize.toNat)

/-- A role that was granted what it is about to copy. -/
def RingBufferRole.Copying (role : RingBufferRole) : Prop :=
  ∃ use buffers, role.call = .copying use buffers

/-- What one step of an access does to the size of the transaction.  The look is in the
    step from `tailRead` on; an access of no bytes does not look. -/
inductive AccessFinds (size avail : Nat) (role role' : RingBufferRole) : Prop where
  | asking (hcall : role'.call ≠ .idle) (hnot : ¬ role'.Copying)
      (htx : role'.txSize.toNat = role.txSize.toNat)
  | granted (hbefore : role.uncopied = 0) (hcall : role'.call ≠ .idle)
      (hafter : role'.uncopied = min size avail)
      (htx : role'.txSize.toNat = role.txSize.toNat + min size avail)
  | refused (hcall : role'.call = .idle)
      (hresult : role'.result = .error .ENODATA) (hless : avail < size)
      (htx : role'.txSize.toNat = role.txSize.toNat)
  | found (hbefore : role.uncopied = 0) (hcall : role'.call = .idle)
      (hresult : ∃ m, role'.result = .ok m)
      (htx : role'.txSize.toNat = role.txSize.toNat + min size avail)
  | copied (hbefore : role.Copying) (hcall : role'.call = .idle)
      (hresult : ∃ m, role'.result = .ok m)
      (htx : role'.txSize.toNat = role.txSize.toNat)

/-- An access that fails has found too little. -/
theorem AccessFinds.less {size avail : Nat} {role role' : RingBufferRole}
    (h : AccessFinds size avail role role') (hidle : role'.call = .idle) {e : Errno}
    (hresult : role'.result = .error e) :
    avail < size ∧ role'.txSize.toNat = role.txSize.toNat := by
  cases h with
  | refused _ _ hless htx => exact ⟨hless, htx⟩
  | asking hbusy _ _ => exact absurd hidle hbusy
  | granted _ hbusy _ _ => exact absurd hidle hbusy
  | found _ _ hok _ =>
      obtain ⟨m, hok⟩ := hok
      exact absurd (hresult.symm.trans hok) (by simp)
  | copied _ _ hok _ =>
      obtain ⟨m, hok⟩ := hok
      exact absurd (hresult.symm.trans hok) (by simp)

/-- An access that succeeds was granted its bytes in this step, or before. -/
theorem AccessFinds.enough {size avail m : Nat} {role role' : RingBufferRole}
    (h : AccessFinds size avail role role') (hidle : role'.call = .idle)
    (hresult : role'.result = .ok m) :
    role.uncopied = 0 ∧ role'.txSize.toNat = role.txSize.toNat + min size avail
      ∨ role.Copying ∧ role'.txSize.toNat = role.txSize.toNat := by
  cases h with
  | refused _ herror _ _ => exact absurd (herror.symm.trans hresult) (by simp)
  | asking hbusy _ _ => exact absurd hidle hbusy
  | granted _ hbusy _ _ => exact absurd hidle hbusy
  | found hbefore _ _ htx => exact Or.inl ⟨hbefore, htx⟩
  | copied hbefore _ _ htx => exact Or.inr ⟨hbefore, htx⟩

/-- A copy to be made was granted in this step. -/
theorem AccessFinds.copying {size avail : Nat} {role role' : RingBufferRole}
    (h : AccessFinds size avail role role') (hbusy : role'.call ≠ .idle)
    (hcopying : role'.Copying) :
    role.uncopied = 0 ∧ role'.uncopied = min size avail
      ∧ role'.txSize.toNat = role.txSize.toNat + min size avail := by
  cases h with
  | asking _ hnot _ => exact absurd hcopying hnot
  | granted hbefore _ hafter htx => exact ⟨hbefore, hafter, htx⟩
  | refused hidle _ _ _ => exact absurd hidle hbusy
  | found _ hidle _ _ => exact absurd hidle hbusy
  | copied _ hidle _ _ => exact absurd hidle hbusy

section Access

variable {n : Nat} {ι : Type} [DecidableEq ι] {roleIdx : ι → Fin (n + 2)} {cap : Nat}
  {s s' : RingBuffer (n + 2) ι} {h : History (n + 2)} {i : ι}

/-- The look. -/
theorem grant_finds (hinv : RingInv roleIdx cap s h) {use : Use} {allowPartial : Bool}
    {size tail : UInt64} (hcall : (s.roles i).call = .tailRead use allowPartial size tail) :
    AccessFinds size.toNat (available cap h.pos (roleIdx i) (s.roles i)) (s.roles i)
      ((s.grant roleIdx use allowPartial size tail i).roles i) := by
  have hrole := hinv.roles i
  obtain ⟨htail, hsize, -⟩ := hrole.tail use allowPartial size tail hcall
  have hsmall := hinv.sized.small
  have hturn : limit cap h.pos (roleIdx i) ≤ h.pos (roleIdx i) + cap :=
    Nat.le_trans (hinv.order.limit_turn _)
      (Nat.add_le_add_right (hinv.order.mono (Fin.zero_le _)) cap)
  have hwithin := hrole.within
  have hbefore : (s.roles i).uncopied = 0 := by
    rw [RingBufferRole.uncopied, hcall]
  have havail : limit cap h.pos (roleIdx i) - h.pos (roleIdx i) - (s.roles i).txSize.toNat
      = available cap h.pos (roleIdx i) (s.roles i) := Nat.sub_sub _ _ _
  rw [RingBuffer.grant]
  dsimp only
  rw [htail, hinv.markers, hinv.readHead]
  rcases accessContiguous_spec hinv.sized allowPartial hsize hwithin hturn with
    ⟨heq, -, hless⟩ | ⟨buffers, heq, haddr, -⟩
  · rw [heq]
    dsimp only
    rw [RingBuffer.setRole_self]
    rw [havail] at hless
    exact .refused rfl rfl hless rfl
  · rw [heq]
    dsimp only
    rw [havail] at haddr ⊢
    generalize hk : min size.toNat (available cap h.pos (roleIdx i) (s.roles i)) = k at haddr ⊢
    have htx : (UInt32.ofNat ((s.roles i).txSize.toNat + k)).toNat
        = (s.roles i).txSize.toNat + k := toNat_ofNat_small32 (by omega)
    by_cases hdone : use = .access ∨ buffers = []
    · rw [if_pos hdone, RingBuffer.setRole_self]
      refine .found hbefore rfl ⟨_, rfl⟩ ?_
      rw [hk]
      exact htx
    · rw [if_neg hdone, RingBuffer.setRole_self]
      refine .granted hbefore (by simp) ?_ ?_
      · show (addresses buffers).length = _
        rw [haddr, cells_length, hk]
      · rw [hk]
        exact htx

/-- **What one step of an access finds.** -/
theorem access_finds (hinv : RingInv roleIdx cap s h) {action : Action} {use : Use}
    {allowPartial : Bool} {size : UInt64}
    (haction : action.access? = some (use, allowPartial, size))
    (hopen : (s.roles i).inTx = true) (hacc : (s.roles i).Accessing use allowPartial size)
    (hstep : s.step roleIdx (if (s.roles i).call = .idle then action else .resume) i
      = some s') :
    AccessFinds size.toNat (available cap h.pos (roleIdx i) (s.roles i)) (s.roles i)
      (s'.roles i) := by
  cases hcall : (s.roles i).call with
  | idle =>
      have hbefore : (s.roles i).uncopied = 0 := by
        rw [RingBufferRole.uncopied, hcall]
      have htail : s' = s.readTail roleIdx use allowPartial size i := by
        rw [if_pos hcall] at hstep
        unfold RingBuffer.step at hstep
        cases action with
        | accessContiguousInTx allowPartial size =>
            cases haction
            simp only [hcall, Option.some.injEq] at hstep
            exact hstep.symm
        | incMarkerInTx size =>
            cases haction
            simp only [hcall, Option.some.injEq] at hstep
            exact hstep.symm
        | readInTx allowPartial size =>
            cases haction
            simp only [hcall, Option.some.injEq] at hstep
            exact hstep.symm
        | writeInTx allowPartial buffer =>
            cases haction
            simp only [hcall, Option.some.injEq] at hstep
            exact hstep.symm
        | _ => cases haction
      rw [htail, RingBuffer.readTail, if_neg (by rw [hopen]; simp)]
      by_cases hsize : size = 0
      · rw [if_pos hsize, RingBuffer.setRole_self, hsize]
        refine .found hbefore rfl ⟨0, rfl⟩ ?_
        show (s.roles i).txSize.toNat = _ + min 0 _
        rw [Nat.zero_min]
        rfl
      · rw [if_neg hsize, RingBuffer.setRole_self]
        refine .asking (by simp) ?_ rfl
        rintro ⟨use', buffers, hcopying⟩
        exact Call.noConfusion hcopying
  | tailRead use' allowPartial' size' tail =>
      rw [if_neg (by rw [hcall]; simp)] at hstep
      unfold RingBuffer.step at hstep
      simp only [hcall, Option.some.injEq] at hstep
      subst hstep
      simp only [RingBufferRole.Accessing, hcall] at hacc
      obtain ⟨rfl, rfl, rfl⟩ := hacc
      exact grant_finds hinv hcall
  | copying use' buffers =>
      rw [if_neg (by rw [hcall]; simp)] at hstep
      unfold RingBuffer.step at hstep
      simp only [hcall, Option.some.injEq] at hstep
      subst hstep
      have hcopy : ∃ role : RingBufferRole,
          (s.copy use' buffers i).roles i = role ∧ role.call = .idle
            ∧ (∃ m, role.result = .ok m) ∧ role.txSize = (s.roles i).txSize := by
        cases use' with
        | _ => exact ⟨_, RingBuffer.setRole_self _ _ _, rfl, ⟨_, rfl⟩, rfl⟩
      obtain ⟨role, hrole, hidle, hresult, htx⟩ := hcopy
      rw [hrole]
      exact .copied ⟨use', buffers, hcall⟩ hidle hresult (by rw [htx])
  | ending =>
      simp only [RingBufferRole.Accessing, hcall] at hacc

end Access

-- ── What the two sides have in common ────────────────────────────────────────

/-- How far an operation is: whether the length is still to go, whether the payload goes
    whole, how long the payload is and how much of it has gone. -/
structure Extent where
  header : Bool
  whole : Bool
  len : Nat
  moved : Nat

/-- All bytes of the operation were moved. -/
def Extent.Completed (x : Extent) : Prop :=
  x.header = false ∧ x.moved = x.len

/-- The least that an operation must find to get on. -/
def Extent.wanted (x : Extent) : Nat :=
  if x.header = true then 4 else if x.whole = true then x.len else 1

/-- The reads of a connection from its inbox, and the writes to its outbox. -/
inductive Way where
  | reads
  | writes
deriving DecidableEq, Repr

/-- The role in the ring of one who reads or writes it. -/
def Way.role : Way → Fin 2
  | .reads => 0
  | .writes => 1

/-- The other way. -/
def Way.other : Way → Way
  | .reads => .writes
  | .writes => .reads

section Sides

variable {α : Type} (holder : AbstractNopHolder α)

/-- What counts of a write. -/
def RingbufferWriteOperation.extent (op : RingbufferWriteOperation α) : Extent where
  header := op.mode = .WRITE_LENGTH
  whole := op.nopObject.isSome
  len := op.len
  moved := op.bytesWritten

/-- What counts of a read. -/
def RingbufferReadOperation.extent (op : RingbufferReadOperation α) : Extent where
  header := op.mode = .READ_LENGTH
  whole := op.nopObject.isSome
  len := op.len
  moved := op.bytesRead

/-- A side, as far as it is about how much is moved. -/
structure SideExtent where
  extents : List Extent
  point : Point
  now : Nat

/-- What counts of one side of a ring. -/
def Stream.handling (s : Stream α) : Way → SideExtent
  | .reads => ⟨s.reader.ops.map (·.extent), s.reader.point, s.reader.bytesNow⟩
  | .writes => ⟨s.writer.ops.map (·.extent), s.writer.point, s.writer.bytesNow⟩

/-- One step of the call that this side is in. -/
def Stream.step (s : Stream α) : Way → Option (Stream α)
  | .reads => s.readStep holder
  | .writes => s.writeStep holder

/-- The role of one side in the ring. -/
def Stream.role (s : Stream α) (way : Way) : RingBufferRole :=
  s.ring.roles way.role

/-- What one side may move, as far as the other has committed. -/
def Stream.available (cap : Nat) (s : Stream α) (way : Way) : Nat :=
  TpRing.available cap s.history.pos way.role (s.role way)

/-- What the transaction holds is what the call has counted. -/
def Counted (x : Extent) (role : RingBufferRole) (now : Nat) : Point → Prop
  | .length => role.txSize.toNat = now + role.uncopied
  | .payload => role.txSize.toNat = now + role.uncopied
  | .fill _ _ _ => role.txSize.toNat = now + x.len
  | .parse => role.txSize.toNat = now + x.len
  | .commit => role.call = .idle → role.txSize.toNat = now
  | _ => True

/-- What a call knows after its last look, as long as the other side has not committed. -/
def Looked (x : Extent) (role : RingBufferRole) (avail : Nat) : Point → Prop
  | .payload => role.Copying → x.moved + role.uncopied = x.len ∨ avail = 0
  | .commit => x.Completed ∨ avail < x.wanted
  | _ => True

namespace Stream

/-- The first operation of a side has counted what its transaction holds. -/
def Counts (s : Stream α) (way : Way) : Prop :=
  ∀ x ∈ (s.handling way).extents.head?,
    Counted x (s.role way) (s.handling way).now (s.handling way).point

/-- The first operation of a side knows what it saw at its last look. -/
def Looks (cap : Nat) (s : Stream α) (way : Way) : Prop :=
  ∀ x ∈ (s.handling way).extents.head?,
    Looked x (s.role way) (s.available cap way) (s.handling way).point

/-- The marker has moved, and the call has not returned. -/
def Owes (s : Stream α) (way : Way) : Prop :=
  (s.handling way).point = .commit ∧ (s.role way).call = .ending ∧ 0 < (s.handling way).now

end Stream

/-- **One step of a call**: it goes on, or it returns.  Only the first half of a commit
    moves a marker, and if it does then the call has moved bytes. -/
inductive CallStep (cap : Nat) (way : Way) (s s' : Stream α) : Prop where
  | onward (x x' : Extent) (rest : List Extent)
      (hextents : (s.handling way).extents = x :: rest)
      (hextents' : (s'.handling way).extents = x' :: rest)
      (hpoint' : (s'.handling way).point ≠ .start) (hcall : (s.role way).call ≠ .ending)
      (hcounts : s'.Counts way) (hlooks : s.Looks cap way → s'.Looks cap way)
      (hpos : s'.history.pos = s.history.pos ∨ s'.Owes way)
  | returned (x : Extent) (rest : List Extent)
      (hextents : (s.handling way).extents = x :: rest)
      (hpoint : (s.handling way).point = .commit) (hcall : (s.role way).call = .ending)
      (hrest : x.Completed ∧ (s'.handling way).extents = rest
        ∨ ¬ x.Completed ∧ (s'.handling way).extents = x :: rest)
      (hpoint' : (s'.handling way).point = .start)
      (hnow : (s'.handling way).now = (s.handling way).now)
      (hpos : s'.history.pos = s.history.pos)
      (htx : (s'.role way).txSize = (s.role way).txSize)

/-- What is there to be read. -/
theorem available_reads (cap : Nat) (s : Stream α) :
    s.available cap .reads
      = s.history.pos 1 - (s.history.pos 0 + (s.ring.roles 0).txSize.toNat) := by
  show limit cap s.history.pos 0 - _ = _
  rw [limit_reader]
  rfl

/-- What room there is to write. -/
theorem available_writes (cap : Nat) (s : Stream α) :
    s.available cap .writes
      = s.history.pos 0 + cap - (s.history.pos 1 + (s.ring.roles 1).txSize.toNat) := by
  show limit cap s.history.pos 1 - _ = _
  rw [limit_writer]
  rfl

/-- A write is completed when its extent is. -/
theorem RingbufferWriteOperation.completed_iff (op : RingbufferWriteOperation α) :
    op.completed = true ↔ op.extent.Completed := by
  rw [completed, decide_eq_true_iff, Extent.Completed, extent, decide_eq_false_iff_not]
  cases op.mode <;> simp

/-- A read is completed when its extent is. -/
theorem RingbufferReadOperation.completed_iff (op : RingbufferReadOperation α) :
    op.completed = true ↔ op.extent.Completed := by
  rw [completed, decide_eq_true_iff, Extent.Completed, extent, decide_eq_false_iff_not]
  cases op.mode <;> simp

-- ── The writer ───────────────────────────────────────────────────────────────

section Steps

variable {holder} {cap : Nat} {writes : List (Content α)} {s s' : Stream α} {put : List UInt8}

/-- `access_finds`, for the access of a call. -/
theorem finds_at (hinv : RingInv id cap s.ring s.history) (way : Way) {action : Action}
    {use : Use} {allowPartial : Bool} {size : UInt64}
    (haction : action.access? = some (use, allowPartial, size))
    (hopen : (s.role way).inTx = true) (hacc : (s.role way).Accessing use allowPartial size)
    {t : Stream α} (haccess : s.access way.role (s.pending way.role action) = some t) :
    AccessFinds size.toNat (s.available cap way) (s.role way) (t.role way) := by
  obtain ⟨ring, hring, rfl⟩ := access_some haccess
  exact access_finds hinv haction hopen hacc hring

/-- A grant is taken from what is available. -/
theorem available_grant {way : Way} {t : Stream α} {d : Nat}
    (hpos : t.history.pos = s.history.pos)
    (htx : (t.role way).txSize.toNat = (s.role way).txSize.toNat + d) :
    t.available cap way = s.available cap way - d := by
  rw [Stream.available, Stream.available, available, available, hpos, htx]
  omega

/-- An access that fails leaves less than it asked for. -/
theorem left_less {way : Way} {t : Stream α} {size : Nat}
    (hfinds : AccessFinds size (s.available cap way) (s.role way) (t.role way))
    (hpos : t.history.pos = s.history.pos) (hidle : (t.role way).call = .idle) {e : Errno}
    (hresult : (t.role way).result = .error e) : t.available cap way < size := by
  obtain ⟨hless, htx⟩ := hfinds.less hidle hresult
  rw [available_grant (d := 0) hpos htx]
  exact hless

/-- Part of a buffer is granted: all that is left of it, or all that is available. -/
theorem part_granted {way : Way} {t : Stream α} {moved len : Nat} (hwithin : moved ≤ len)
    (hfinds : AccessFinds (len - moved) (s.available cap way) (s.role way) (t.role way))
    (hpos : t.history.pos = s.history.pos) (hbusy : (t.role way).call ≠ .idle)
    (hcopying : (t.role way).Copying) :
    moved + (t.role way).uncopied = len ∨ t.available cap way = 0 := by
  obtain ⟨-, hgranted, htx⟩ := hfinds.copying hbusy hcopying
  rw [available_grant hpos htx, hgranted]
  omega

/-- So much of it is moved then. -/
theorem part_moved {way : Way} {t : Stream α} {moved len now k m : Nat} (hwithin : moved ≤ len)
    (hfinds : AccessFinds (len - moved) (s.available cap way) (s.role way) (t.role way))
    (hpos : t.history.pos = s.history.pos) (hidle : (t.role way).call = .idle)
    (hresult : (t.role way).result = .ok m)
    (hcounted : (s.role way).txSize.toNat = now + (s.role way).uncopied)
    (htx : (t.role way).txSize.toNat = now + k)
    (hlooked : (s.role way).Copying →
      moved + (s.role way).uncopied = len ∨ s.available cap way = 0) :
    moved + k = len ∨ t.available cap way = 0 := by
  rcases hfinds.enough hidle hresult with ⟨hbefore, hgrant⟩ | ⟨hcopying, hgrant⟩
  · rw [available_grant hpos hgrant]
    omega
  · rw [available_grant (d := 0) hpos hgrant]
    have hmoved := hlooked hcopying
    omega

/-- An access is not the end of a transaction. -/
theorem not_ending {role : RingBufferRole} {use : Use} {allowPartial : Bool} {size : UInt64}
    (hacc : role.Accessing use allowPartial size) : role.call ≠ .ending := by
  intro hending
  simp only [RingBufferRole.Accessing, hending] at hacc

/-- Memory accessed in place is not copied. -/
theorem access_not_copying {role : RingBufferRole} {allowPartial : Bool} {size : UInt64}
    (hacc : role.Accessing .access allowPartial size) : ¬ role.Copying := by
  rintro ⟨use, buffers, hcopying⟩
  simp only [RingBufferRole.Accessing, hcopying] at hacc
  exact hacc.2.1 hacc.1

/-- Between two calls nothing is copied. -/
theorem not_copying {role : RingBufferRole} (hcall : role.call = .idle) : ¬ role.Copying := by
  rintro ⟨use, buffers, hcopying⟩
  rw [hcall] at hcopying
  exact Call.noConfusion hcopying

/-- A step of a write that stays in its operation. -/
theorem write_onward {op op' : RingbufferWriteOperation α}
    {rest : List (RingbufferWriteOperation α)} (hops : s.writer.ops = op :: rest)
    (hops' : s'.writer.ops = op' :: rest) (hpoint' : s'.writer.point ≠ .start)
    (hcall : (s.ring.roles 1).call ≠ .ending)
    (hcounted : Counted op'.extent (s'.ring.roles 1) s'.writer.bytesNow s'.writer.point)
    (hlooked : Looked op.extent (s.ring.roles 1) (s.available cap .writes) s.writer.point →
      Looked op'.extent (s'.ring.roles 1) (s'.available cap .writes) s'.writer.point)
    (hpos : s'.history.pos = s.history.pos ∨ s'.Owes .writes) : CallStep cap .writes s s' := by
  have hextents : (s.handling .writes).extents = op.extent :: rest.map (·.extent) := by
    rw [Stream.handling, hops]
    rfl
  have hextents' : (s'.handling .writes).extents = op'.extent :: rest.map (·.extent) := by
    rw [Stream.handling, hops']
    rfl
  refine .onward op.extent op'.extent _ hextents hextents' hpoint' hcall ?_ ?_ hpos
  · rw [Stream.Counts, hextents']
    rintro x ⟨⟩
    exact hcounted
  · rw [Stream.Looks, Stream.Looks, hextents, hextents']
    rintro hlooks x ⟨⟩
    exact hlooked (hlooks _ rfl)

section Writer

variable {c : Content α} {rest : List (RingbufferWriteOperation α)}
  {op : RingbufferWriteOperation α} (hinv : StreamInv holder cap writes s put)
  (hops : s.writer.ops = op :: rest)

include hops

/-- The call to the ring goes on. -/
theorem write_busy_call {t : Stream α} (hwriter : t.writer = s.writer)
    (hsame : t.history.pos = s.history.pos) (hbusy : (t.ring.roles 1).call ≠ .idle)
    (hcall : (s.ring.roles 1).call ≠ .ending) (hpoint : s.writer.point ≠ .start)
    (hcounted : Counted op.extent (t.ring.roles 1) s.writer.bytesNow s.writer.point)
    (hlooked : Looked op.extent (s.ring.roles 1) (s.available cap .writes) s.writer.point →
      Looked op.extent (t.ring.roles 1) (t.available cap .writes) s.writer.point) :
    CallStep cap .writes s
      (if (t.ring.roles 1).call = .idle then t.writeReturned holder op rest else t) := by
  rw [if_neg hbusy]
  refine write_onward hops (hwriter ▸ hops) ?_ hcall ?_ ?_ (Or.inl hsame)
  · rw [hwriter]
    exact hpoint
  · rw [hwriter]
    exact hcounted
  · rw [hwriter]
    exact hlooked

/-- The call to the ring returns, to go on with the operation. -/
theorem write_returned_call {t : Stream α} (hwriter : t.writer = s.writer)
    (hsame : t.history.pos = s.history.pos) (hidle : (t.ring.roles 1).call = .idle)
    (hcall : (s.ring.roles 1).call ≠ .ending) (hpoint : s.writer.point ≠ .commit)
    {op' : RingbufferWriteOperation α} {point : Point} {n : Nat}
    (hnext : op.returned holder (t.ring.roles 1).txSize.toNat (t.ring.roles 1).result
      s.writer.point = (op', point, n)) (hpoint' : point ≠ .start)
    (hcounted : Counted op'.extent (t.ring.roles 1) (s.writer.bytesNow + n) point)
    (hlooked : Looked op.extent (s.ring.roles 1) (s.available cap .writes) s.writer.point →
      Looked op'.extent (t.ring.roles 1) (t.available cap .writes) point) :
    CallStep cap .writes s
      (if (t.ring.roles 1).call = .idle then t.writeReturned holder op rest else t) := by
  have hform : t.writeReturned holder op rest = t.setWriter rest (op', point, n) := by
    rw [Stream.writeReturned, hwriter, ← hnext]
    cases hp : s.writer.point with
    | commit => exact absurd hp hpoint
    | _ => rfl
  rw [if_pos hidle, hform]
  refine write_onward hops rfl hpoint' hcall ?_ hlooked (Or.inl hsame)
  show Counted op'.extent (t.ring.roles 1) (t.writer.bytesNow + n) point
  rw [hwriter]
  exact hcounted

include hinv

/-- The call which opens the transaction of a write. -/
theorem write_start_call (hpoint : s.writer.point = .start) (hclosed : (s.ring.roles 1).Closed)
    (hstep : { s with writer := { s.writer with bytesNow := 0 } }.writeCall holder op rest
      = some s') : CallStep cap .writes s s' := by
  obtain ⟨hin, hcall⟩ := hclosed
  obtain ⟨t, haccess, rfl⟩ := writeCall_some hstep
  rw [Stream.pending, if_pos hcall] at haccess
  simp only [hpoint] at haccess
  obtain ⟨ring, hring, rfl⟩ := access_some haccess
  obtain ⟨hrole, -, -⟩ := start_step hinv.ring hin hcall hring
  have hidle : (ring.roles 1).call = .idle := by
    rw [hrole]
    rfl
  have htx : (ring.roles 1).txSize.toNat = 0 := by
    rw [hrole]
    show (s.ring.roles 1).txSize.toNat = 0
    rw [((hinv.ring.roles 1).closed hin).1]
    rfl
  have hsame : (s.ring.track id .startTx 1 s.history).pos = s.history.pos :=
    track_pos Action.noConfusion
  rw [if_pos hidle, Stream.writeReturned]
  simp only [RingbufferWriteOperation.returned, hrole, RingBufferRole.return]
  refine write_onward hops rfl ?_ (by rw [hcall]; exact Call.noConfusion) ?_ ?_ (Or.inl hsame)
  · show (if op.mode = .WRITE_LENGTH then Point.length else .payload) ≠ .start
    split <;> exact Point.noConfusion
  · show Counted op.extent (ring.roles 1) 0 (if op.mode = .WRITE_LENGTH then .length else .payload)
    have hzero : (ring.roles 1).txSize.toNat = 0 + (ring.roles 1).uncopied := by
      rw [htx, uncopied_idle hidle]
    split <;> exact hzero
  · intro _
    show Looked op.extent (ring.roles 1) _ (if op.mode = .WRITE_LENGTH then .length else .payload)
    split
    · trivial
    · exact fun hcopying => absurd hcopying (not_copying hidle)

/-- The call which writes the length. -/
theorem write_length_call (hpoint : s.writer.point = .length)
    (hopen : (s.ring.roles 1).inTx = true) (hmode : op.mode = .WRITE_LENGTH)
    (hacc : (s.ring.roles 1).Accessing (.write (lengthBytes (UInt32.ofNat op.len))) false 4)
    (hcounted : (s.ring.roles 1).txSize.toNat
      = s.writer.bytesNow + (s.ring.roles 1).uncopied)
    (hstep : s.writeCall holder op rest = some s') : CallStep cap .writes s s' := by
  obtain ⟨t, haccess, rfl⟩ := writeCall_some hstep
  rw [hpoint] at haccess
  obtain ⟨hout, -, -, hsame, hwriter, -, -⟩ :=
    access_at hinv.ring rfl hopen hacc hcounted haccess
  have hfinds := finds_at hinv.ring .writes rfl hopen hacc haccess
  have hcall : (s.ring.roles 1).call ≠ .ending := not_ending hacc
  have hnot : s.writer.point ≠ .commit := by
    rw [hpoint]
    exact Point.noConfusion
  cases hout with
  | busy hbusy hacc' htx hdata =>
      refine write_busy_call hops hwriter hsame hbusy hcall ?_ ?_ ?_
      · rw [hpoint]
        exact Point.noConfusion
      · rw [hpoint]
        exact htx
      · rw [hpoint]
        exact id
  | failed hidle hpart hresult htx hdata =>
      have hnext : ∀ txSize, op.returned holder txSize (.error .ENODATA) .length
          = (op, .commit, 0) := fun _ => rfl
      refine write_returned_call hops hwriter hsame hidle hcall hnot
        (by rw [hpoint, hresult, hnext]) Point.noConfusion ?_ ?_
      · exact fun _ => htx
      intro _
      refine Or.inr ?_
      have hwanted : op.extent.wanted = 4 := if_pos (decide_eq_true hmode)
      rw [hwanted]
      exact left_less hfinds hsame hidle hresult
  | done k hidle hle hall hresult htx hdata _ =>
      obtain ⟨m, hresult, hm⟩ := hresult
      obtain rfl := hm Use.noConfusion
      have hnext : ∀ txSize, op.returned holder txSize (.ok m) .length
          = ({ op with mode := .WRITE_PAYLOAD }, .payload, m) := fun _ => rfl
      refine write_returned_call hops hwriter hsame hidle hcall hnot
        (by rw [hpoint, hresult, hnext]) Point.noConfusion ?_ ?_
      · show _ = _ + (t.ring.roles 1).uncopied
        rw [uncopied_idle hidle]
        exact htx
      · exact fun _ hcopying => absurd hcopying (not_copying hidle)

/-- A part of a buffer: all that is left of it, or all that is available. -/
theorem write_buffer_call (hpoint : s.writer.point = .payload)
    (hopen : (s.ring.roles 1).inTx = true) (hmode : op.mode = .WRITE_PAYLOAD)
    (hptr : op.nopObject = none) (hwithin : op.bytesWritten ≤ op.len)
    (hsmall : op.len < 2 ^ 32) {use : Use} (huse : use ≠ .access)
    (haction : (op.call .payload).access?
      = some (use, true, UInt64.ofNat (op.len - op.bytesWritten)))
    (hacc : (s.ring.roles 1).Accessing use true (UInt64.ofNat (op.len - op.bytesWritten)))
    (hcounted : (s.ring.roles 1).txSize.toNat
      = s.writer.bytesNow + (s.ring.roles 1).uncopied)
    (hstep : s.writeCall holder op rest = some s') : CallStep cap .writes s s' := by
  obtain ⟨t, haccess, rfl⟩ := writeCall_some hstep
  rw [hpoint] at haccess
  have hsize : (UInt64.ofNat (op.len - op.bytesWritten)).toNat = op.len - op.bytesWritten :=
    UInt64.toNat_ofNat_of_lt (Nat.lt_of_le_of_lt (Nat.sub_le _ _)
      (Nat.lt_trans hsmall (by decide)))
  obtain ⟨hout, -, -, hsame, hwriter, -, -⟩ :=
    access_at hinv.ring haction hopen hacc hcounted haccess
  have hfinds := finds_at hinv.ring .writes haction hopen hacc haccess
  rw [hsize] at hfinds
  have hcall : (s.ring.roles 1).call ≠ .ending := not_ending hacc
  have hnot : s.writer.point ≠ .commit := by
    rw [hpoint]
    exact Point.noConfusion
  cases hout with
  | busy hbusy hacc' htx hdata =>
      refine write_busy_call hops hwriter hsame hbusy hcall ?_ ?_ ?_
      · rw [hpoint]
        exact Point.noConfusion
      · rw [hpoint]
        exact htx
      · rw [hpoint]
        intro _ hcopying
        exact part_granted hwithin hfinds hsame hbusy hcopying
  | failed hidle hpart hresult htx hdata => exact Bool.noConfusion hpart
  | done k hidle hle hall hresult htx hdata _ =>
      obtain ⟨m, hresult, hm⟩ := hresult
      obtain rfl := hm huse
      have hnext : ∀ txSize, op.returned holder txSize (.ok m) .payload
          = ({ op with bytesWritten := op.bytesWritten + m }, .commit, m) := by
        intro txSize
        rw [RingbufferWriteOperation.returned, hptr]
      refine write_returned_call hops hwriter hsame hidle hcall hnot
        (by rw [hpoint, hresult, hnext]) Point.noConfusion ?_ ?_
      · exact fun _ => htx
      rw [hpoint]
      intro hlooked
      have hheader : decide (op.mode = .WRITE_LENGTH) = false := by
        rw [hmode]
        rfl
      rcases part_moved hwithin hfinds hsame hidle hresult hcounted htx hlooked with hall | hnone
      · exact Or.inl ⟨hheader, hall⟩
      · refine Or.inr ?_
        have hwanted : (RingbufferWriteOperation.extent
            { op with bytesWritten := op.bytesWritten + m }).wanted = 1 := by
          simp only [RingbufferWriteOperation.extent, Extent.wanted, hheader, hptr]
          rfl
        rw [hwanted, hnone]
        exact Nat.zero_lt_one

/-- Room for a whole object, or too little. -/
theorem write_object_call (hpoint : s.writer.point = .payload)
    (hopen : (s.ring.roles 1).inTx = true) (hmode : op.mode = .WRITE_PAYLOAD)
    (hnop : op.nopObject.isSome = true) (hsmall : op.len < 2 ^ 32)
    (hacc : (s.ring.roles 1).Accessing .access false (UInt64.ofNat op.len))
    (hcounted : (s.ring.roles 1).txSize.toNat
      = s.writer.bytesNow + (s.ring.roles 1).uncopied)
    (hstep : s.writeCall holder op rest = some s') : CallStep cap .writes s s' := by
  obtain ⟨t, haccess, rfl⟩ := writeCall_some hstep
  obtain ⟨a, hobject⟩ := Option.isSome_iff_exists.mp hnop
  have haction : (op.call .payload).access? = some (.access, false, UInt64.ofNat op.len) := by
    rw [RingbufferWriteOperation.call, hobject]
    rfl
  rw [hpoint] at haccess
  have hsize : (UInt64.ofNat op.len).toNat = op.len :=
    UInt64.toNat_ofNat_of_lt (Nat.lt_trans hsmall (by decide))
  obtain ⟨hout, -, -, hsame, hwriter, -, -⟩ :=
    access_at hinv.ring haction hopen hacc hcounted haccess
  have hfinds := finds_at hinv.ring .writes haction hopen hacc haccess
  rw [hsize] at hfinds
  have hcall : (s.ring.roles 1).call ≠ .ending := not_ending hacc
  have hnot : s.writer.point ≠ .commit := by
    rw [hpoint]
    exact Point.noConfusion
  cases hout with
  | busy hbusy hacc' htx hdata =>
      refine write_busy_call hops hwriter hsame hbusy hcall ?_ ?_ ?_
      · rw [hpoint]
        exact Point.noConfusion
      · rw [hpoint]
        exact htx
      · rw [hpoint]
        exact fun _ hcopying => absurd hcopying (access_not_copying hacc')
  | failed hidle hpart hresult htx hdata =>
      have hnext : ∀ txSize, op.returned holder txSize (.error .ENODATA) .payload
          = (op, .commit, 0) := fun _ => rfl
      refine write_returned_call hops hwriter hsame hidle hcall hnot
        (by rw [hpoint, hresult, hnext]) Point.noConfusion ?_ ?_
      · exact fun _ => htx
      intro _
      refine Or.inr ?_
      have hwanted : op.extent.wanted = op.len := by
        simp only [RingbufferWriteOperation.extent, Extent.wanted, hmode, hnop]
        rfl
      rw [hwanted]
      exact left_less hfinds hsame hidle hresult
  | done k hidle hle hall hresult htx hdata _ =>
      obtain rfl : k = op.len := (hall rfl).trans hsize
      obtain ⟨m, hresult, -⟩ := hresult
      have hnext : ∀ txSize, op.returned holder txSize (.ok m) .payload
          = (op, .fill (txSize - op.len) (holder.write a op.len).1 (holder.write a op.len).2,
            0) := by
        intro txSize
        rw [RingbufferWriteOperation.returned, hobject]
      refine write_returned_call hops hwriter hsame hidle hcall hnot
        (by rw [hpoint, hresult, hnext]) Point.noConfusion ?_ ?_
      · exact htx
      · exact fun _ => trivial

/-- The commit, in two halves. -/
theorem write_commit_call (hpoint : s.writer.point = .commit)
    (hphase : (s.ring.roles 1).Committing)
    (hcounted : (s.ring.roles 1).call = .idle →
      (s.ring.roles 1).txSize.toNat = s.writer.bytesNow)
    (hstep : s.writeCall holder op rest = some s') : CallStep cap .writes s s' := by
  obtain ⟨t, haccess, rfl⟩ := writeCall_some hstep
  rw [hpoint, Stream.pending] at haccess
  rcases hphase with ⟨hopen, hcall⟩ | hending
  · rw [if_pos hcall] at haccess
    obtain ⟨ring, hring, rfl⟩ := access_some haccess
    obtain ⟨hrole, -, -⟩ := commit_step hopen hcall hring
    have hmoved := track_commit hinv.ring hopen hcall
    have hcall' : (ring.roles 1).call = .ending := by rw [hrole]
    rw [if_neg (by rw [hcall']; exact Call.noConfusion)]
    refine write_onward hops hops ?_ (by rw [hcall]; exact Call.noConfusion) ?_ ?_ ?_
    · rw [hpoint]
      exact Point.noConfusion
    · rw [hpoint]
      intro hidle
      exact Call.noConfusion (hcall'.symm.trans hidle)
    · rw [hpoint]
      intro hlooked
      rw [available_writes] at hlooked ⊢
      show _ ∨ (s.ring.track id .commitTx 1 s.history).pos 0 + cap
        - ((s.ring.track id .commitTx 1 s.history).pos 1 + (ring.roles 1).txSize.toNat) < _
      rw [hmoved, hrole]
      exact hlooked
    · rcases Nat.eq_zero_or_pos (s.ring.roles 1).txSize.toNat with hzero | hsome
      · refine Or.inl ?_
        show (s.ring.track id .commitTx 1 s.history).pos = _
        rw [hmoved, hzero]
        exact Function.update_eq_self _ _
      · have hnow : 0 < s.writer.bytesNow := by
          rw [← hcounted hcall]
          exact hsome
        exact Or.inr ⟨hpoint, hcall', hnow⟩
  · rw [if_neg (by rw [hending]; exact Call.noConfusion)] at haccess
    obtain ⟨ring, hring, rfl⟩ := access_some haccess
    obtain ⟨hrole, -, -⟩ := ending_step hending hring
    have hsame : (s.ring.track id .resume 1 s.history).pos = s.history.pos :=
      track_pos Action.noConfusion
    have hidle : (ring.roles 1).call = .idle := by
      rw [hrole]
      rfl
    have hresult : (ring.roles 1).result = .ok 0 := by
      rw [hrole]
      rfl
    have htx : (ring.roles 1).txSize = (s.ring.roles 1).txSize := by
      rw [hrole]
      rfl
    have hextents : (s.handling .writes).extents = op.extent :: rest.map (·.extent) := by
      rw [Stream.handling, hops]
      rfl
    rw [if_pos hidle, Stream.writeReturned]
    simp only [hpoint, hresult]
    by_cases hcompleted : op.completed = true
    · rw [if_pos hcompleted]
      exact .returned op.extent _ hextents hpoint hending
        (Or.inl ⟨op.completed_iff.mp hcompleted, rfl⟩) rfl rfl hsame htx
    · rw [if_neg hcompleted]
      exact .returned op.extent _ hextents hpoint hending
        (Or.inr ⟨fun hx => hcompleted (op.completed_iff.mpr hx), rfl⟩) rfl rfl hsame htx

end Writer

/-- A payload is never longer than its length can say. -/
theorem Content.bytes_small {c : Content α} (hc : c.Sendable holder cap) (hcap : cap < 2 ^ 31) :
    (c.bytes holder).length < 2 ^ 32 := by
  cases c with
  | buffer bytes => exact hc
  | object a =>
      have hsize := hc.2.size
      have hle := hc.1
      show (holder.write a (holder.getSize a)).1.length < 2 ^ 32
      omega

/-- **A step of `handleWrite`.** -/
theorem StreamInv.writeStep_call (hinv : StreamInv holder cap writes s put)
    (hsend : ∀ c ∈ writes, c.Sendable holder cap) (hcounts : s.Counts .writes)
    (hstep : s.writeStep holder = some s') : CallStep cap .writes s s' := by
  rw [Stream.writeStep] at hstep
  cases hinv.writer with
  | finished hops hpoint hdone hclosed hput hpos =>
      rw [hops] at hstep
      exact absurd hstep (by simp)
  | front c rest op hops hwrites hop hphase hput hpos =>
      have hc : c.Sendable holder cap := hsend c (by rw [hwrites]; simp)
      have hsmall : op.len < 2 ^ 32 := by
        rw [hop.len hc]
        exact Content.bytes_small hc hinv.ring.sized.small
      have hcounted : Counted op.extent (s.ring.roles 1) s.writer.bytesNow s.writer.point := by
        refine hcounts op.extent ?_
        rw [Stream.handling, hops]
        rfl
      rw [hops] at hstep
      cases hpoint : s.writer.point with
      | start =>
          rw [hpoint] at hstep hphase
          exact write_start_call hinv hops hpoint hphase.1 hstep
      | length =>
          rw [hpoint] at hstep hphase hcounted
          obtain ⟨hopen, hmode, hacc⟩ := hphase
          exact write_length_call hinv hops hpoint hopen hmode hacc hcounted hstep
      | payload =>
          rw [hpoint] at hstep hphase hcounted
          obtain ⟨hopen, hmode, hnop, hptr⟩ := hphase
          dsimp only at hstep
          by_cases hthrow : (s.ring.roles 1).call = .idle ∧ op.nopObject.isSome = true
              ∧ s.ring.header.kDataPoolByteSize.toNat < op.len
          · obtain ⟨-, hsome, hlt⟩ := hthrow
            rw [hop.same] at hsome hlt
            cases c with
            | buffer bytes => cases hsome
            | object a =>
                rw [hinv.ring.sized.size, toNat_ofNat_small hinv.ring.sized.small] at hlt
                exact absurd hc.1 (Nat.not_le.mpr hlt)
          · rw [if_neg hthrow] at hstep
            cases hobject : op.nopObject with
            | none =>
                have hlen : op.ptr.length = op.len := by
                  rw [hop.same] at hobject ⊢
                  cases c with
                  | buffer bytes => rfl
                  | object a => cases hobject
                have haction : (op.call .payload).access?
                    = some (.write (op.ptr.drop op.bytesWritten), true,
                      UInt64.ofNat (op.len - op.bytesWritten)) := by
                  simp only [RingbufferWriteOperation.call, hobject]
                  rw [List.take_of_length_le (by rw [List.length_drop, hlen]), Action.access?,
                    List.length_drop, hlen]
                exact write_buffer_call hinv hops hpoint hopen hmode hobject hop.within hsmall
                  Use.noConfusion haction (hptr hobject) hcounted hstep
            | some a =>
                have hsome : op.nopObject.isSome = true := by rw [hobject]; rfl
                exact write_object_call hinv hops hpoint hopen hmode hsome hsmall (hnop hsome).2
                  hcounted hstep
      | fill offset bytes status =>
          rw [hpoint] at hstep hphase hcounted
          obtain ⟨hopen, hcall, hmode, hnop, hzero, rfl, -⟩ := hphase
          have hnot : (s.ring.roles 1).call ≠ .ending := by
            rw [hcall]
            exact Call.noConfusion
          cases bytes with
          | nil =>
              obtain rfl := Option.some.inj hstep
              refine write_onward hops rfl Point.noConfusion hnot ?_ ?_ (Or.inl rfl)
              · exact fun _ => hcounted
              · intro _
                refine Or.inl ⟨?_, ?_⟩
                · show decide (op.mode = .WRITE_LENGTH) = false
                  rw [hmode]
                  rfl
                · show op.bytesWritten + op.len = op.len
                  rw [hzero, Nat.zero_add]
          | cons b bytes =>
              obtain ⟨t, haccess, rfl⟩ := Option.map_eq_some_iff.mp hstep
              obtain ⟨ring, hring, rfl⟩ := access_some haccess
              obtain ⟨rfl, -⟩ := poke_step hinv.ring hcall hring
              have hsame : (s.ring.track id (.poke offset b) 1 s.history).pos = s.history.pos :=
                track_pos Action.noConfusion
              refine write_onward hops rfl Point.noConfusion hnot ?_ (fun _ => trivial)
                (Or.inl hsame)
              exact hcounted
      | parse =>
          rw [hpoint] at hphase
          exact hphase.elim
      | commit =>
          rw [hpoint] at hstep hphase hcounted
          exact write_commit_call hinv hops hpoint hphase hcounted hstep
      | threw e =>
          rw [hpoint] at hphase
          exact hphase.elim

-- ── The reader ───────────────────────────────────────────────────────────────

/-- A step of a read that stays in its operation. -/
theorem read_onward {op op' : RingbufferReadOperation α}
    {rest : List (RingbufferReadOperation α)} (hops : s.reader.ops = op :: rest)
    (hops' : s'.reader.ops = op' :: rest) (hpoint' : s'.reader.point ≠ .start)
    (hcall : (s.ring.roles 0).call ≠ .ending)
    (hcounted : Counted op'.extent (s'.ring.roles 0) s'.reader.bytesNow s'.reader.point)
    (hlooked : Looked op.extent (s.ring.roles 0) (s.available cap .reads) s.reader.point →
      Looked op'.extent (s'.ring.roles 0) (s'.available cap .reads) s'.reader.point)
    (hpos : s'.history.pos = s.history.pos ∨ s'.Owes .reads) : CallStep cap .reads s s' := by
  have hextents : (s.handling .reads).extents = op.extent :: rest.map (·.extent) := by
    rw [Stream.handling, hops]
    rfl
  have hextents' : (s'.handling .reads).extents = op'.extent :: rest.map (·.extent) := by
    rw [Stream.handling, hops']
    rfl
  refine .onward op.extent op'.extent _ hextents hextents' hpoint' hcall ?_ ?_ hpos
  · rw [Stream.Counts, hextents']
    rintro x ⟨⟩
    exact hcounted
  · rw [Stream.Looks, Stream.Looks, hextents, hextents']
    rintro hlooks x ⟨⟩
    exact hlooked (hlooks _ rfl)

section Reader

variable {rest : List (RingbufferReadOperation α)} {op : RingbufferReadOperation α}
  (hinv : StreamInv holder cap writes s put) (hops : s.reader.ops = op :: rest)

include hops

/-- The call to the ring goes on. -/
theorem read_busy_call {t : Stream α} (hreader : t.reader = s.reader)
    (hsame : t.history.pos = s.history.pos) (hbusy : (t.ring.roles 0).call ≠ .idle)
    (hcall : (s.ring.roles 0).call ≠ .ending) (hpoint : s.reader.point ≠ .start)
    (hcounted : Counted op.extent (t.ring.roles 0) s.reader.bytesNow s.reader.point)
    (hlooked : Looked op.extent (s.ring.roles 0) (s.available cap .reads) s.reader.point →
      Looked op.extent (t.ring.roles 0) (t.available cap .reads) s.reader.point) :
    CallStep cap .reads s
      (if (t.ring.roles 0).call = .idle then t.readReturned op rest else t) := by
  rw [if_neg hbusy]
  refine read_onward hops (hreader ▸ hops) ?_ hcall ?_ ?_ (Or.inl hsame)
  · rw [hreader]
    exact hpoint
  · rw [hreader]
    exact hcounted
  · rw [hreader]
    exact hlooked

/-- The call to the ring returns, to go on with the operation. -/
theorem read_returned_call {t : Stream α} (hreader : t.reader = s.reader)
    (hsame : t.history.pos = s.history.pos) (hidle : (t.ring.roles 0).call = .idle)
    (hcall : (s.ring.roles 0).call ≠ .ending) (hpoint : s.reader.point ≠ .commit)
    {op' : RingbufferReadOperation α} {point : Point} {n : Nat} {dcheck : Bool}
    (hnext : op.returned (t.ring.roles 0).out (t.ring.roles 0).result s.reader.point
      = (op', point, n, dcheck)) (hpoint' : point ≠ .start)
    (hcounted : Counted op'.extent (t.ring.roles 0) (s.reader.bytesNow + n) point)
    (hlooked : Looked op.extent (s.ring.roles 0) (s.available cap .reads) s.reader.point →
      Looked op'.extent (t.ring.roles 0) (t.available cap .reads) point) :
    CallStep cap .reads s
      (if (t.ring.roles 0).call = .idle then t.readReturned op rest else t) := by
  have hform : t.readReturned op rest
      = { t with reader := { t.reader with dchecks := t.reader.dchecks && dcheck } }.setReader
        rest (op', point, n) := by
    rw [Stream.readReturned, hreader]
    cases hp : s.reader.point with
    | commit => exact absurd hp hpoint
    | _ =>
        rw [hp] at hnext
        dsimp only
        rw [hnext]
  rw [if_pos hidle, hform]
  refine read_onward hops rfl hpoint' hcall ?_ hlooked (Or.inl hsame)
  show Counted op'.extent (t.ring.roles 0) (t.reader.bytesNow + n) point
  rw [hreader]
  exact hcounted

include hinv

/-- The call which opens the transaction of a read. -/
theorem read_start_call (hpoint : s.reader.point = .start) (hclosed : (s.ring.roles 0).Closed)
    (hstep : { s with reader := { s.reader with bytesNow := 0 } }.readCall op rest
      = some s') : CallStep cap .reads s s' := by
  obtain ⟨hin, hcall⟩ := hclosed
  obtain ⟨t, haccess, rfl⟩ := readCall_some hstep
  rw [Stream.pending, if_pos hcall] at haccess
  simp only [hpoint] at haccess
  obtain ⟨ring, hring, rfl⟩ := access_some haccess
  obtain ⟨hrole, -, -⟩ := start_step hinv.ring hin hcall hring
  have hidle : (ring.roles 0).call = .idle := by
    rw [hrole]
    rfl
  have htx : (ring.roles 0).txSize.toNat = 0 := by
    rw [hrole]
    show (s.ring.roles 0).txSize.toNat = 0
    rw [((hinv.ring.roles 0).closed hin).1]
    rfl
  have hsame : (s.ring.track id .startTx 0 s.history).pos = s.history.pos :=
    track_pos Action.noConfusion
  rw [if_pos hidle, Stream.readReturned]
  simp only [RingbufferReadOperation.returned, hrole, RingBufferRole.return]
  refine read_onward hops rfl ?_ (by rw [hcall]; exact Call.noConfusion) ?_ ?_ (Or.inl hsame)
  · show (if op.mode = .READ_LENGTH then Point.length else .payload) ≠ .start
    split <;> exact Point.noConfusion
  · show Counted op.extent (ring.roles 0) 0 (if op.mode = .READ_LENGTH then .length else .payload)
    have hzero : (ring.roles 0).txSize.toNat = 0 + (ring.roles 0).uncopied := by
      rw [htx, uncopied_idle hidle]
    split <;> exact hzero
  · intro _
    show Looked op.extent (ring.roles 0) _ (if op.mode = .READ_LENGTH then .length else .payload)
    split
    · trivial
    · exact fun hcopying => absurd hcopying (not_copying hidle)

/-- The call which reads the length. -/
theorem read_length_call (hpoint : s.reader.point = .length)
    (hopen : (s.ring.roles 0).inTx = true) (hmode : op.mode = .READ_LENGTH)
    (hacc : (s.ring.roles 0).Accessing .read false 4)
    (hcounted : (s.ring.roles 0).txSize.toNat
      = s.reader.bytesNow + (s.ring.roles 0).uncopied)
    (hstep : s.readCall op rest = some s') : CallStep cap .reads s s' := by
  obtain ⟨t, haccess, rfl⟩ := readCall_some hstep
  rw [hpoint] at haccess
  obtain ⟨hout, -, -, hsame, -, hreader, -⟩ :=
    access_at hinv.ring rfl hopen hacc hcounted haccess
  have hfinds := finds_at hinv.ring .reads rfl hopen hacc haccess
  have hcall : (s.ring.roles 0).call ≠ .ending := not_ending hacc
  have hnot : s.reader.point ≠ .commit := by
    rw [hpoint]
    exact Point.noConfusion
  cases hout with
  | busy hbusy hacc' htx hdata =>
      refine read_busy_call hops hreader hsame hbusy hcall ?_ ?_ ?_
      · rw [hpoint]
        exact Point.noConfusion
      · rw [hpoint]
        exact htx
      · rw [hpoint]
        exact id
  | failed hidle hpart hresult htx hdata =>
      have hnext : ∀ out, op.returned out (.error .ENODATA) .length
          = (op, .commit, 0, true) := fun _ => rfl
      refine read_returned_call hops hreader hsame hidle hcall hnot
        (by rw [hpoint, hresult, hnext]) Point.noConfusion ?_ ?_
      · exact fun _ => htx
      intro _
      refine Or.inr ?_
      have hwanted : op.extent.wanted = 4 := if_pos (decide_eq_true hmode)
      rw [hwanted]
      exact left_less hfinds hsame hidle hresult
  | done k hidle hle hall hresult htx hdata _ =>
      obtain ⟨m, hresult, hm⟩ := hresult
      obtain rfl := hm Use.noConfusion
      have hnext : ∀ out, ∃ op' dcheck,
          op.returned out (.ok m) .length = (op', .payload, m, dcheck) :=
        fun out => ⟨_, _, rfl⟩
      obtain ⟨op', dcheck, hnext⟩ := hnext (t.ring.roles 0).out
      refine read_returned_call hops hreader hsame hidle hcall hnot
        (by rw [hpoint, hresult, hnext]) Point.noConfusion ?_ ?_
      · show _ = _ + (t.ring.roles 0).uncopied
        rw [uncopied_idle hidle]
        exact htx
      · exact fun _ hcopying => absurd hcopying (not_copying hidle)

/-- A part of a buffer: all that is left of it, or all that is available. -/
theorem read_buffer_call (hpoint : s.reader.point = .payload)
    (hopen : (s.ring.roles 0).inTx = true) (hmode : op.mode = .READ_PAYLOAD)
    (hptr : op.nopObject = none) (hwithin : op.bytesRead ≤ op.len) (hsmall : op.len < 2 ^ 32)
    (hacc : (s.ring.roles 0).Accessing .read true (UInt64.ofNat (op.len - op.bytesRead)))
    (hcounted : (s.ring.roles 0).txSize.toNat
      = s.reader.bytesNow + (s.ring.roles 0).uncopied)
    (hstep : s.readCall op rest = some s') : CallStep cap .reads s s' := by
  obtain ⟨t, haccess, rfl⟩ := readCall_some hstep
  have haction : (op.call .payload).access?
      = some (.read, true, UInt64.ofNat (op.len - op.bytesRead)) := by
    rw [RingbufferReadOperation.call, hptr]
    rfl
  rw [hpoint] at haccess
  have hsize : (UInt64.ofNat (op.len - op.bytesRead)).toNat = op.len - op.bytesRead :=
    UInt64.toNat_ofNat_of_lt (Nat.lt_of_le_of_lt (Nat.sub_le _ _)
      (Nat.lt_trans hsmall (by decide)))
  obtain ⟨hout, -, -, hsame, -, hreader, -⟩ :=
    access_at hinv.ring haction hopen hacc hcounted haccess
  have hfinds := finds_at hinv.ring .reads haction hopen hacc haccess
  rw [hsize] at hfinds
  have hcall : (s.ring.roles 0).call ≠ .ending := not_ending hacc
  have hnot : s.reader.point ≠ .commit := by
    rw [hpoint]
    exact Point.noConfusion
  cases hout with
  | busy hbusy hacc' htx hdata =>
      refine read_busy_call hops hreader hsame hbusy hcall ?_ ?_ ?_
      · rw [hpoint]
        exact Point.noConfusion
      · rw [hpoint]
        exact htx
      · rw [hpoint]
        intro _ hcopying
        exact part_granted hwithin hfinds hsame hbusy hcopying
  | failed hidle hpart hresult htx hdata => exact Bool.noConfusion hpart
  | done k hidle hle hall hresult htx hdata _ =>
      obtain ⟨m, hresult, hm⟩ := hresult
      obtain rfl := hm Use.noConfusion
      have hnext : ∀ out, op.returned out (.ok m) .payload
          = ({ op with ptr := op.ptr ++ out.take m, bytesRead := op.bytesRead + m },
            .commit, m, true) := by
        intro out
        rw [RingbufferReadOperation.returned, hptr]
      refine read_returned_call hops hreader hsame hidle hcall hnot
        (by rw [hpoint, hresult, hnext]) Point.noConfusion ?_ ?_
      · exact fun _ => htx
      rw [hpoint]
      intro hlooked
      have hheader : decide (op.mode = .READ_LENGTH) = false := by
        rw [hmode]
        rfl
      rcases part_moved hwithin hfinds hsame hidle hresult hcounted htx hlooked with hall | hnone
      · exact Or.inl ⟨hheader, hall⟩
      · refine Or.inr ?_
        have hwanted : ∀ ptr, (RingbufferReadOperation.extent
            { op with ptr := ptr, bytesRead := op.bytesRead + m }).wanted = 1 := by
          intro ptr
          simp only [RingbufferReadOperation.extent, Extent.wanted, hheader, hptr]
          rfl
        rw [hwanted, hnone]
        exact Nat.zero_lt_one

/-- A whole object, or too little. -/
theorem read_object_call (hpoint : s.reader.point = .payload)
    (hopen : (s.ring.roles 0).inTx = true) (hmode : op.mode = .READ_PAYLOAD)
    (hnop : op.nopObject.isSome = true) (hsmall : op.len < 2 ^ 32)
    (hacc : (s.ring.roles 0).Accessing .access false (UInt64.ofNat op.len))
    (hcounted : (s.ring.roles 0).txSize.toNat
      = s.reader.bytesNow + (s.ring.roles 0).uncopied)
    (hstep : s.readCall op rest = some s') : CallStep cap .reads s s' := by
  obtain ⟨t, haccess, rfl⟩ := readCall_some hstep
  obtain ⟨a, hobject⟩ := Option.isSome_iff_exists.mp hnop
  have haction : (op.call .payload).access? = some (.access, false, UInt64.ofNat op.len) := by
    rw [RingbufferReadOperation.call, hobject]
    rfl
  rw [hpoint] at haccess
  have hsize : (UInt64.ofNat op.len).toNat = op.len :=
    UInt64.toNat_ofNat_of_lt (Nat.lt_trans hsmall (by decide))
  obtain ⟨hout, -, -, hsame, -, hreader, -⟩ :=
    access_at hinv.ring haction hopen hacc hcounted haccess
  have hfinds := finds_at hinv.ring .reads haction hopen hacc haccess
  rw [hsize] at hfinds
  have hcall : (s.ring.roles 0).call ≠ .ending := not_ending hacc
  have hnot : s.reader.point ≠ .commit := by
    rw [hpoint]
    exact Point.noConfusion
  cases hout with
  | busy hbusy hacc' htx hdata =>
      refine read_busy_call hops hreader hsame hbusy hcall ?_ ?_ ?_
      · rw [hpoint]
        exact Point.noConfusion
      · rw [hpoint]
        exact htx
      · rw [hpoint]
        exact fun _ hcopying => absurd hcopying (access_not_copying hacc')
  | failed hidle hpart hresult htx hdata =>
      have hnext : ∀ out, op.returned out (.error .ENODATA) .payload
          = (op, .commit, 0, true) := fun _ => rfl
      refine read_returned_call hops hreader hsame hidle hcall hnot
        (by rw [hpoint, hresult, hnext]) Point.noConfusion ?_ ?_
      · exact fun _ => htx
      intro _
      refine Or.inr ?_
      have hwanted : op.extent.wanted = op.len := by
        simp only [RingbufferReadOperation.extent, Extent.wanted, hmode, hnop]
        rfl
      rw [hwanted]
      exact left_less hfinds hsame hidle hresult
  | done k hidle hle hall hresult htx hdata _ =>
      obtain rfl : k = op.len := (hall rfl).trans hsize
      obtain ⟨m, hresult, -⟩ := hresult
      have hnext : ∀ out, op.returned out (.ok m) .payload = (op, .parse, 0, true) := by
        intro out
        rw [RingbufferReadOperation.returned, hobject]
      refine read_returned_call hops hreader hsame hidle hcall hnot
        (by rw [hpoint, hresult, hnext]) Point.noConfusion ?_ ?_
      · exact htx
      · exact fun _ => trivial

/-- The commit, in two halves. -/
theorem read_commit_call (hpoint : s.reader.point = .commit)
    (hphase : (s.ring.roles 0).Committing)
    (hcounted : (s.ring.roles 0).call = .idle →
      (s.ring.roles 0).txSize.toNat = s.reader.bytesNow)
    (hstep : s.readCall op rest = some s') : CallStep cap .reads s s' := by
  obtain ⟨t, haccess, rfl⟩ := readCall_some hstep
  rw [hpoint, Stream.pending] at haccess
  rcases hphase with ⟨hopen, hcall⟩ | hending
  · rw [if_pos hcall] at haccess
    obtain ⟨ring, hring, rfl⟩ := access_some haccess
    obtain ⟨hrole, -, -⟩ := commit_step hopen hcall hring
    have hmoved := track_commit hinv.ring hopen hcall
    have hcall' : (ring.roles 0).call = .ending := by rw [hrole]
    rw [if_neg (by rw [hcall']; exact Call.noConfusion)]
    refine read_onward hops hops ?_ (by rw [hcall]; exact Call.noConfusion) ?_ ?_ ?_
    · rw [hpoint]
      exact Point.noConfusion
    · rw [hpoint]
      intro hidle
      exact Call.noConfusion (hcall'.symm.trans hidle)
    · rw [hpoint]
      intro hlooked
      rw [available_reads] at hlooked ⊢
      show _ ∨ (s.ring.track id .commitTx 0 s.history).pos 1
        - ((s.ring.track id .commitTx 0 s.history).pos 0 + (ring.roles 0).txSize.toNat) < _
      rw [hmoved, hrole]
      exact hlooked
    · rcases Nat.eq_zero_or_pos (s.ring.roles 0).txSize.toNat with hzero | hsome
      · refine Or.inl ?_
        show (s.ring.track id .commitTx 0 s.history).pos = _
        rw [hmoved, hzero]
        exact Function.update_eq_self _ _
      · have hnow : 0 < s.reader.bytesNow := by
          rw [← hcounted hcall]
          exact hsome
        exact Or.inr ⟨hpoint, hcall', hnow⟩
  · rw [if_neg (by rw [hending]; exact Call.noConfusion)] at haccess
    obtain ⟨ring, hring, rfl⟩ := access_some haccess
    obtain ⟨hrole, -, -⟩ := ending_step hending hring
    have hsame : (s.ring.track id .resume 0 s.history).pos = s.history.pos :=
      track_pos Action.noConfusion
    have hidle : (ring.roles 0).call = .idle := by
      rw [hrole]
      rfl
    have hresult : (ring.roles 0).result = .ok 0 := by
      rw [hrole]
      rfl
    have htx : (ring.roles 0).txSize = (s.ring.roles 0).txSize := by
      rw [hrole]
      rfl
    have hextents : (s.handling .reads).extents = op.extent :: rest.map (·.extent) := by
      rw [Stream.handling, hops]
      rfl
    rw [if_pos hidle, Stream.readReturned]
    simp only [hpoint, hresult]
    by_cases hcompleted : op.completed = true
    · rw [if_pos hcompleted]
      exact .returned op.extent _ hextents hpoint hending
        (Or.inl ⟨op.completed_iff.mp hcompleted, rfl⟩) rfl rfl hsame htx
    · rw [if_neg hcompleted]
      exact .returned op.extent _ hextents hpoint hending
        (Or.inr ⟨fun hx => hcompleted (op.completed_iff.mpr hx), rfl⟩) rfl rfl hsame htx

end Reader

/-- An object that was granted whole is parsed whole. -/
theorem parsed_whole (hinv : StreamInv holder cap writes s put) {a : α} {rest : List (Content α)}
    (hwrites : writes = s.reader.done ++ .object a :: rest) {op : RingbufferReadOperation α}
    (hop : op.Reading holder (.object a)) (hexact : holder.Exact a)
    (hcall : (s.ring.roles 0).call = .idle) (hnop : op.nopObject.isSome = true)
    (hzero : op.bytesRead = 0) (hle : op.len ≤ (s.ring.roles 0).txSize.toNat)
    {taken : List UInt8} (htaken : taken = frames holder s.reader.done
      ++ (lengthBytes (UInt32.ofNat ((Content.object a).bytes holder).length)
        ++ ((Content.object a).bytes holder).take op.bytesRead))
    (hpos : s.history.pos 0 + (s.ring.roles 0).txSize.toNat
      = taken.length + (s.ring.roles 0).uncopied + op.len) :
    op.parsed holder (((addresses (s.ring.roles 0).granted).drop
        ((s.ring.roles 0).txSize.toNat - op.len)).map s.ring.data)
      = ({ op with nopObject := some a, bytesRead := op.bytesRead + op.len }, .commit,
          op.len) := by
  obtain ⟨b, hobject⟩ := Option.isSome_iff_exists.mp hnop
  rw [uncopied_idle hcall, Nat.add_zero] at hpos
  have hwhole : taken ++ (((Content.object a).bytes holder).drop op.bytesRead
      ++ frames holder rest) = frames holder writes := by
    rw [hwrites, htaken]
    exact frames_split s.reader.done rest (.object a) op.bytesRead
  obtain ⟨base, hbase⟩ := Nat.exists_eq_add_of_le' hle
  have hlen : taken.length = s.history.pos 0 + base := by omega
  obtain ⟨hread, -⟩ := hinv.readNext hinv.ring rfl hwhole hlen (Nat.le_of_eq hbase.symm)
  have hlength : op.len = ((Content.object a).bytes holder).length := hop.len
  have hbytes : ((addresses (s.ring.roles 0).granted).drop
      ((s.ring.roles 0).txSize.toNat - op.len)).map s.ring.data
      = (Content.object a).bytes holder := by
    rw [(hinv.ring.roles 0).granted, hbase, Nat.add_sub_cancel, ← cells_append,
      List.drop_left' (cells_length _ _ _)]
    refine hread.trans ?_
    rw [hzero, List.drop_zero, hlength]
    exact List.take_left' rfl
  rw [hbytes, RingbufferReadOperation.parsed, hobject, Option.map_some,
    show holder.read ((Content.object a).bytes holder) b = (.None, a) from hexact.parsed b]

/-- **A step of `handleRead`.** -/
theorem StreamInv.readStep_call (hinv : StreamInv holder cap writes s put)
    (hsend : ∀ c ∈ writes, c.Sendable holder cap) (hcounts : s.Counts .reads)
    (hstep : s.readStep holder = some s') : CallStep cap .reads s s' := by
  rw [Stream.readStep] at hstep
  cases hinv.reader with
  | between targets todo taken hops hwrites hfit hphase htaken hpos =>
      cases targets with
      | nil =>
          rw [hops] at hstep
          exact absurd hstep (by simp)
      | cons target targets =>
          rw [hops, List.map_cons] at hstep
          have hops' : s.reader.ops = .make target :: targets.map .make := hops
          have hcounted : Counted (RingbufferReadOperation.make target).extent (s.ring.roles 0)
              s.reader.bytesNow s.reader.point := by
            refine hcounts _ ?_
            rw [Stream.handling, hops']
            rfl
          cases hpoint : s.reader.point with
          | start =>
              rw [hpoint] at hstep hphase
              exact read_start_call hinv hops' hpoint hphase hstep
          | length =>
              rw [hpoint] at hstep hphase hcounted
              exact read_length_call hinv hops' hpoint hphase.1 (make_mode _) hphase.2 hcounted
                hstep
          | commit =>
              rw [hpoint] at hstep hphase hcounted
              exact read_commit_call hinv hops' hpoint hphase hcounted hstep
          | _ =>
              rw [hpoint] at hphase
              exact hphase.elim
  | within targets c rest op taken hops hwrites hfit hop hphase htaken hpos =>
      have hc : c.Sendable holder cap := hsend c (by rw [hwrites]; simp)
      have hsmall : op.len < 2 ^ 32 := by
        rw [hop.len]
        exact Content.bytes_small hc hinv.ring.sized.small
      have hcounted : Counted op.extent (s.ring.roles 0) s.reader.bytesNow s.reader.point := by
        refine hcounts op.extent ?_
        rw [Stream.handling, hops]
        rfl
      rw [hops] at hstep
      cases hpoint : s.reader.point with
      | start =>
          rw [hpoint] at hstep hphase
          exact read_start_call hinv hops hpoint hphase.1 hstep
      | payload =>
          rw [hpoint] at hstep hphase hcounted
          obtain ⟨hopen, hnop, hptr⟩ := hphase
          dsimp only at hstep
          cases c with
          | buffer bytes =>
              have hnone := (hop.buffer bytes rfl).1
              rw [hnone, if_neg (by rintro ⟨-, hno, -⟩; exact absurd hno (by simp))] at hstep
              exact read_buffer_call hinv hops hpoint hopen hop.mode hnone hop.within hsmall
                (hptr hnone) hcounted hstep
          | object a =>
              have hsome := (hop.object a rfl).1
              have hfits : op.len ≤ cap := by
                rw [hop.len, show ((Content.object a).bytes holder).length = holder.getSize a
                  from hc.2.size]
                exact hc.1
              rw [if_neg (by
                rintro ⟨-, -, hlt⟩
                rw [hinv.ring.sized.size, toNat_ofNat_small hinv.ring.sized.small] at hlt
                omega)] at hstep
              exact read_object_call hinv hops hpoint hopen hop.mode hsome hsmall (hnop hsome).2
                hcounted hstep
      | parse =>
          rw [hpoint] at hstep hphase hpos hcounted
          obtain ⟨hopen, hcall, hsome, hzero, hle⟩ := hphase
          obtain rfl := Option.some.inj hstep
          cases c with
          | buffer bytes =>
              rw [(hop.buffer bytes rfl).1] at hsome
              exact absurd hsome (by simp)
          | object a =>
              rw [parsed_whole hinv hwrites hop hc.2 hcall hsome hzero hle htaken hpos]
              refine read_onward hops rfl Point.noConfusion ?_ ?_ ?_ (Or.inl rfl)
              · rw [hcall]
                exact Call.noConfusion
              · exact fun _ => hcounted
              · intro _
                refine Or.inl ⟨?_, ?_⟩
                · show decide (op.mode = .READ_LENGTH) = false
                  rw [hop.mode]
                  rfl
                · show op.bytesRead + op.len = op.len
                  rw [hzero, Nat.zero_add]
      | commit =>
          rw [hpoint] at hstep hphase hcounted
          exact read_commit_call hinv hops hpoint hphase.1 hcounted hstep
      | _ =>
          rw [hpoint] at hphase
          exact hphase.elim

-- ── The other side, and what comes later ─────────────────────────────────────

/-- A step of one instance leaves the others as they are. -/
theorem step_others {n : Nat} {ι : Type} [DecidableEq ι] {roleIdx : ι → Fin (n + 2)}
    {ring ring' : RingBuffer (n + 2) ι} {action : Action} {i j : ι}
    (hstep : ring.step roleIdx action i = some ring') (hj : j ≠ i) :
    ring'.roles j = ring.roles j := by
  have hset : ∀ (r : RingBuffer (n + 2) ι) (role : RingBufferRole),
      (r.setRole i role).roles j = r.roles j := fun r role => RingBuffer.setRole_ne _ _ hj
  have htail : ∀ use allowPartial size,
      (ring.readTail roleIdx use allowPartial size i).roles j = ring.roles j := by
    intro use allowPartial size
    rw [RingBuffer.readTail]
    split
    · exact hset _ _
    · split <;> exact hset _ _
  unfold RingBuffer.step at hstep
  cases hcall : (ring.roles i).call with
  | idle =>
      cases action with
      | startTx =>
          simp only [hcall, Option.some.injEq] at hstep
          rw [← hstep, RingBuffer.startTx]
          dsimp only
          split
          · exact hset _ _
          · split <;> exact hset _ _
      | commitTx =>
          simp only [hcall, Option.some.injEq] at hstep
          rw [← hstep, RingBuffer.commitTx]
          dsimp only
          split <;> exact hset _ _
      | cancelTx =>
          simp only [hcall, Option.some.injEq] at hstep
          rw [← hstep, RingBuffer.cancelTx]
          dsimp only
          split <;> exact hset _ _
      | poke offset byte =>
          simp only [hcall, RingBuffer.poke] at hstep
          split at hstep
          · exact absurd hstep (by simp)
          · split at hstep
            · exact absurd hstep (by simp)
            · obtain rfl := Option.some.inj hstep
              rfl
      | resume => simp only [hcall, reduceCtorEq] at hstep
      | _ =>
          simp only [hcall, Option.some.injEq] at hstep
          rw [← hstep]
          exact htail _ _ _
  | tailRead use allowPartial size tail =>
      cases action with
      | resume =>
          simp only [hcall, Option.some.injEq] at hstep
          rw [← hstep, RingBuffer.grant]
          dsimp only
          split
          · exact hset _ _
          · split <;> exact hset _ _
      | _ => simp only [hcall, reduceCtorEq] at hstep
  | copying use buffers =>
      cases action with
      | resume =>
          simp only [hcall, Option.some.injEq] at hstep
          rw [← hstep]
          cases use with
          | _ => exact hset _ _
      | _ => simp only [hcall, reduceCtorEq] at hstep
  | ending =>
      cases action with
      | resume =>
          simp only [hcall, Option.some.injEq] at hstep
          rw [← hstep, RingBuffer.endCommit]
          exact hset _ _
      | _ => simp only [hcall, reduceCtorEq] at hstep

/-- A side steps its own role of the ring, or none. -/
def RingStep (ring ring' : RingBuffer 2 (Fin 2)) (i : Fin 2) : Prop :=
  ring' = ring ∨ ∃ action, ring.step id action i = some ring'

/-- A step of one role leaves the other role alone. -/
theorem RingStep.others {ring ring' : RingBuffer 2 (Fin 2)} {i j : Fin 2}
    (h : RingStep ring ring' i) (hj : j ≠ i) : ring'.roles j = ring.roles j := by
  rcases h with rfl | ⟨action, hstep⟩
  · rfl
  · exact step_others hstep hj

/-- A call of the writer leaves the reader alone. -/
theorem writeCall_frame {w : Side α (RingbufferWriteOperation α)}
    {op : RingbufferWriteOperation α} {rest : List (RingbufferWriteOperation α)}
    (hstep : { s with writer := w }.writeCall holder op rest = some s') :
    s'.reader = s.reader ∧ RingStep s.ring s'.ring 1 := by
  obtain ⟨t, haccess, rfl⟩ := writeCall_some hstep
  obtain ⟨ring, hring, rfl⟩ := access_some haccess
  split
  · rw [Stream.writeReturned]
    dsimp only
    split
    · split
      · exact ⟨rfl, Or.inr ⟨_, hring⟩⟩
      · split <;> exact ⟨rfl, Or.inr ⟨_, hring⟩⟩
    · exact ⟨rfl, Or.inr ⟨_, hring⟩⟩
  · exact ⟨rfl, Or.inr ⟨_, hring⟩⟩

/-- A step of the writer leaves the reader alone. -/
theorem writeStep_frame (hstep : s.writeStep holder = some s') :
    s'.reader = s.reader ∧ RingStep s.ring s'.ring 1 := by
  have hcall : ∀ {op : RingbufferWriteOperation α} {rest : List (RingbufferWriteOperation α)},
      s.writeCall holder op rest = some s' → s'.reader = s.reader ∧ RingStep s.ring s'.ring 1 :=
    fun h => writeCall_frame (s := s) (w := s.writer) h
  rw [Stream.writeStep] at hstep
  split at hstep
  · exact absurd hstep (by simp)
  · split at hstep
    · exact absurd hstep (by simp)
    · obtain ⟨t, haccess, rfl⟩ := Option.map_eq_some_iff.mp hstep
      obtain ⟨ring, hring, rfl⟩ := access_some haccess
      exact ⟨rfl, Or.inr ⟨_, hring⟩⟩
    · obtain rfl := Option.some.inj hstep
      exact ⟨rfl, Or.inl rfl⟩
    · exact writeCall_frame hstep
    · split at hstep
      · obtain rfl := Option.some.inj hstep
        exact ⟨rfl, Or.inl rfl⟩
      · exact hcall hstep
    · exact hcall hstep

/-- A call of the reader leaves the writer alone. -/
theorem readCall_frame {r : Side α (RingbufferReadOperation α)}
    {op : RingbufferReadOperation α} {rest : List (RingbufferReadOperation α)}
    (hstep : { s with reader := r }.readCall op rest = some s') :
    s'.writer = s.writer ∧ RingStep s.ring s'.ring 0 := by
  obtain ⟨t, haccess, rfl⟩ := readCall_some hstep
  obtain ⟨ring, hring, rfl⟩ := access_some haccess
  split
  · rw [Stream.readReturned]
    dsimp only
    split
    · split
      · exact ⟨rfl, Or.inr ⟨_, hring⟩⟩
      · split <;> exact ⟨rfl, Or.inr ⟨_, hring⟩⟩
    · exact ⟨rfl, Or.inr ⟨_, hring⟩⟩
  · exact ⟨rfl, Or.inr ⟨_, hring⟩⟩

/-- A step of the reader leaves the writer alone. -/
theorem readStep_frame (hstep : s.readStep holder = some s') :
    s'.writer = s.writer ∧ RingStep s.ring s'.ring 0 := by
  have hcall : ∀ {op : RingbufferReadOperation α} {rest : List (RingbufferReadOperation α)},
      s.readCall op rest = some s' → s'.writer = s.writer ∧ RingStep s.ring s'.ring 0 :=
    fun h => readCall_frame (s := s) (r := s.reader) h
  rw [Stream.readStep] at hstep
  split at hstep
  · exact absurd hstep (by simp)
  · split at hstep
    · exact absurd hstep (by simp)
    · obtain rfl := Option.some.inj hstep
      exact ⟨rfl, Or.inl rfl⟩
    · exact readCall_frame hstep
    · split at hstep
      · obtain rfl := Option.some.inj hstep
        exact ⟨rfl, Or.inl rfl⟩
      · exact hcall hstep
    · exact hcall hstep

/-- What a step of one side does not touch. -/
theorem Stream.step_other {way : Way} (hstep : s.step holder way = some s') :
    s'.handling way.other = s.handling way.other ∧ s'.role way.other = s.role way.other := by
  cases way with
  | reads =>
      obtain ⟨hwriter, hring⟩ := readStep_frame hstep
      refine ⟨?_, hring.others (by decide)⟩
      show SideExtent.mk _ _ _ = _
      rw [hwriter]
      rfl
  | writes =>
      obtain ⟨hreader, hring⟩ := writeStep_frame hstep
      refine ⟨?_, hring.others (by decide)⟩
      show SideExtent.mk _ _ _ = _
      rw [hreader]
      rfl

/-- A stream in which operations are already there that are still to be issued. -/
def Stream.later (holder : AbstractNopHolder α) (reads : List (Target α))
    (more : List (Content α)) (s : Stream α) : Stream α :=
  { s with
    reader := { s.reader with ops := s.reader.ops ++ reads.map .make }
    writer := { s.writer with ops := s.writer.ops ++ more.map (.make holder) } }

/-- A side without operations takes no step. -/
theorem Stream.step_some {way : Way} (hstep : s.step holder way = some s') :
    ∃ x rest, (s.handling way).extents = x :: rest := by
  cases way with
  | reads =>
      cases hops : s.reader.ops with
      | nil =>
          rw [Stream.step, Stream.readStep, hops] at hstep
          exact absurd hstep (by simp)
      | cons op rest =>
          refine ⟨op.extent, rest.map (·.extent), ?_⟩
          rw [Stream.handling, hops]
          rfl
  | writes =>
      cases hops : s.writer.ops with
      | nil =>
          rw [Stream.step, Stream.writeStep, hops] at hstep
          exact absurd hstep (by simp)
      | cons op rest =>
          refine ⟨op.extent, rest.map (·.extent), ?_⟩
          rw [Stream.handling, hops]
          rfl

section Later

variable {reads : List (Target α)} {more : List (Content α)}

/-- An access to the ring does not depend on operations yet to come. -/
theorem access_later (s : Stream α) (i : Fin 2) (action : Action) :
    (s.later holder reads more).access i action
      = (s.access i action).map (Stream.later holder reads more) := by
  have hsame : (s.later holder reads more).ring = s.ring := rfl
  rw [Stream.access, Stream.access, hsame]
  cases s.ring.step id action i <;> rfl

/-- What follows a call of the writer does not depend on operations yet to come. -/
theorem writeReturned_later (s : Stream α) (op : RingbufferWriteOperation α)
    (rest : List (RingbufferWriteOperation α)) :
    (s.later holder reads more).writeReturned holder op (rest ++ more.map (.make holder))
      = (s.writeReturned holder op rest).later holder reads more := by
  have hpoint : (s.later holder reads more).writer.point = s.writer.point := rfl
  have hring : (s.later holder reads more).ring = s.ring := rfl
  rw [Stream.writeReturned, Stream.writeReturned, hpoint, hring]
  dsimp only
  cases s.writer.point with
  | commit =>
      dsimp only
      cases (s.ring.roles 1).result with
      | error e => rfl
      | ok n =>
          dsimp only
          split <;> rfl
  | _ => rfl

/-- A call of the writer does not depend on operations yet to come. -/
theorem writeCall_later (s : Stream α) (op : RingbufferWriteOperation α)
    (rest : List (RingbufferWriteOperation α)) :
    (s.later holder reads more).writeCall holder op (rest ++ more.map (.make holder))
      = (s.writeCall holder op rest).map (Stream.later holder reads more) := by
  rw [Stream.writeCall, Stream.writeCall]
  show ((s.later holder reads more).access 1 (s.pending 1 (op.call s.writer.point))).map _ = _
  rw [access_later, Option.map_map, Option.map_map]
  refine congrArg (fun f => Option.map f _) ?_
  funext t
  show (if (t.ring.roles 1).call = .idle then _ else _) = Stream.later _ _ _ (if _ then _ else _)
  split
  · exact writeReturned_later t op rest
  · rfl

/-- Writes that are issued later make no difference. -/
theorem writeStep_later (hstep : s.writeStep holder = some s') :
    (s.later holder reads more).writeStep holder = some (s'.later holder reads more) := by
  cases hops : s.writer.ops with
  | nil =>
      rw [Stream.writeStep, hops] at hstep
      exact absurd hstep (by simp)
  | cons op rest =>
      have hops' : (s.later holder reads more).writer.ops
          = op :: (rest ++ more.map (.make holder)) := by
        show s.writer.ops ++ _ = _
        rw [hops]
        rfl
      have hpoint' : (s.later holder reads more).writer.point = s.writer.point := rfl
      have hcall : ∀ {t t' : Stream α}, t.writeCall holder op rest = some t' →
          (t.later holder reads more).writeCall holder op (rest ++ more.map (.make holder))
            = some (t'.later holder reads more) := by
        intro t t' h
        rw [writeCall_later, h]
        rfl
      rw [Stream.writeStep, hops] at hstep
      rw [Stream.writeStep, hops', hpoint']
      cases hpoint : s.writer.point with
      | threw e =>
          rw [hpoint] at hstep
          exact absurd hstep (by simp)
      | fill offset bytes status =>
          rw [hpoint] at hstep
          cases bytes with
          | nil =>
              obtain rfl := Option.some.inj hstep
              rfl
          | cons b bytes =>
              obtain ⟨t, haccess, rfl⟩ := Option.map_eq_some_iff.mp hstep
              dsimp only
              rw [access_later, haccess]
              rfl
      | start =>
          rw [hpoint] at hstep
          exact hcall hstep
      | payload =>
          rw [hpoint] at hstep
          dsimp only at hstep ⊢
          split at hstep
          · rename_i hthrow
            obtain rfl := Option.some.inj hstep
            exact if_pos hthrow
          · rename_i hthrow
            exact (if_neg hthrow).trans (hcall hstep)
      | length =>
          rw [hpoint] at hstep
          exact hcall hstep
      | parse =>
          rw [hpoint] at hstep
          exact hcall hstep
      | commit =>
          rw [hpoint] at hstep
          exact hcall hstep

/-- What follows a call of the reader does not depend on operations yet to come. -/
theorem readReturned_later (s : Stream α) (op : RingbufferReadOperation α)
    (rest : List (RingbufferReadOperation α)) :
    (s.later holder reads more).readReturned op (rest ++ reads.map .make)
      = (s.readReturned op rest).later holder reads more := by
  have hpoint : (s.later holder reads more).reader.point = s.reader.point := rfl
  have hring : (s.later holder reads more).ring = s.ring := rfl
  rw [Stream.readReturned, Stream.readReturned, hpoint, hring]
  dsimp only
  cases s.reader.point with
  | commit =>
      dsimp only
      cases (s.ring.roles 0).result with
      | error e => rfl
      | ok n =>
          dsimp only
          split <;> rfl
  | _ => rfl

/-- A call of the reader does not depend on operations yet to come. -/
theorem readCall_later (s : Stream α) (op : RingbufferReadOperation α)
    (rest : List (RingbufferReadOperation α)) :
    (s.later holder reads more).readCall op (rest ++ reads.map .make)
      = (s.readCall op rest).map (Stream.later holder reads more) := by
  rw [Stream.readCall, Stream.readCall]
  show ((s.later holder reads more).access 0 (s.pending 0 (op.call s.reader.point))).map _ = _
  rw [access_later, Option.map_map, Option.map_map]
  refine congrArg (fun f => Option.map f _) ?_
  funext t
  show (if (t.ring.roles 0).call = .idle then _ else _) = Stream.later _ _ _ (if _ then _ else _)
  split
  · exact readReturned_later t op rest
  · rfl

/-- Neither do reads. -/
theorem readStep_later (hstep : s.readStep holder = some s') :
    (s.later holder reads more).readStep holder = some (s'.later holder reads more) := by
  cases hops : s.reader.ops with
  | nil =>
      rw [Stream.readStep, hops] at hstep
      exact absurd hstep (by simp)
  | cons op rest =>
      have hops' : (s.later holder reads more).reader.ops = op :: (rest ++ reads.map .make) := by
        show s.reader.ops ++ _ = _
        rw [hops]
        rfl
      have hpoint' : (s.later holder reads more).reader.point = s.reader.point := rfl
      have hcall : ∀ {t t' : Stream α}, t.readCall op rest = some t' →
          (t.later holder reads more).readCall op (rest ++ reads.map .make)
            = some (t'.later holder reads more) := by
        intro t t' h
        rw [readCall_later, h]
        rfl
      rw [Stream.readStep, hops] at hstep
      rw [Stream.readStep, hops', hpoint']
      cases hpoint : s.reader.point with
      | threw e =>
          rw [hpoint] at hstep
          exact absurd hstep (by simp)
      | parse =>
          rw [hpoint] at hstep
          obtain rfl := Option.some.inj hstep
          rfl
      | payload =>
          rw [hpoint] at hstep
          dsimp only at hstep ⊢
          split at hstep
          · rename_i hthrow
            obtain rfl := Option.some.inj hstep
            exact if_pos hthrow
          · rename_i hthrow
            exact (if_neg hthrow).trans (hcall hstep)
      | _ =>
          rw [hpoint] at hstep
          exact hcall hstep

/-- A step does not depend on operations yet to come. -/
theorem step_later {way : Way} (hstep : s.step holder way = some s') :
    (s.later holder reads more).step holder way = some (s'.later holder reads more) := by
  cases way with
  | reads => exact readStep_later hstep
  | writes => exact writeStep_later hstep

/-- The operations of a side that are there, and those to come. -/
theorem extents_later (holder : AbstractNopHolder α) (reads : List (Target α))
    (more : List (Content α)) (way : Way) :
    ∃ more', ∀ t : Stream α, ((t.later holder reads more).handling way).extents
      = (t.handling way).extents ++ more' := by
  cases way with
  | reads =>
      refine ⟨(reads.map RingbufferReadOperation.make).map (·.extent), fun t => ?_⟩
      exact List.map_append
  | writes =>
      refine ⟨(more.map (RingbufferWriteOperation.make holder)).map (·.extent), fun t => ?_⟩
      exact List.map_append

/-- The first operation does not depend on those yet to come. -/
theorem head_later {way : Way} {x : Extent} {rest : List Extent}
    (hextents : (s.handling way).extents = x :: rest) :
    ((s.later holder reads more).handling way).extents.head?
      = (s.handling way).extents.head? := by
  obtain ⟨more', hmore⟩ := extents_later holder reads more way
  rw [hmore, hextents]
  rfl

/-- What was counted does not depend on operations yet to come. -/
theorem counts_later {way : Way} {x : Extent} {rest : List Extent}
    (hextents : (s.handling way).extents = x :: rest) :
    (s.later holder reads more).Counts way ↔ s.Counts way := by
  rw [Stream.Counts, Stream.Counts, head_later hextents]
  cases way <;> exact Iff.rfl

/-- What was seen does not depend on operations yet to come. -/
theorem looks_later {way : Way} {x : Extent} {rest : List Extent}
    (hextents : (s.handling way).extents = x :: rest) :
    (s.later holder reads more).Looks cap way ↔ s.Looks cap way := by
  rw [Stream.Looks, Stream.Looks, head_later hextents]
  cases way <;> exact Iff.rfl

/-- What is still to be issued does not show in the steps. -/
theorem CallStep.ofLater {way : Way} {x : Extent} {rest : List Extent}
    (hextents : (s.handling way).extents = x :: rest)
    (h : CallStep cap way (s.later holder reads more) (s'.later holder reads more)) :
    CallStep cap way s s' := by
  obtain ⟨more', hmore⟩ := extents_later holder reads more way
  have hpoint : ∀ t : Stream α, ((t.later holder reads more).handling way).point
      = (t.handling way).point := by
    intro t
    cases way <;> rfl
  have hnow : ∀ t : Stream α, ((t.later holder reads more).handling way).now
      = (t.handling way).now := by
    intro t
    cases way <;> rfl
  cases h with
  | onward y y' rest' hy hy' hpoint' hcall hcounts hlooks hpos =>
      rw [hmore, hextents] at hy
      obtain ⟨rfl, rfl⟩ := List.cons.inj hy
      rw [hmore] at hy'
      have hextents' : (s'.handling way).extents = y' :: rest :=
        List.append_cancel_right (hy'.trans (List.cons_append).symm)
      refine .onward x y' rest hextents hextents' (hpoint s' ▸ hpoint') hcall
        ((counts_later hextents').mp hcounts) ?_ ?_
      · intro hlooked
        exact (looks_later hextents').mp (hlooks ((looks_later hextents).mpr hlooked))
      · rcases hpos with hsame | ⟨hcommit, hending, howed⟩
        · exact Or.inl hsame
        · exact Or.inr ⟨(hpoint s').symm.trans hcommit, hending, hnow s' ▸ howed⟩
  | returned y rest' hy hcommit hcall hrest hpoint' hnow' hpos htx =>
      rw [hmore, hextents] at hy
      obtain ⟨rfl, rfl⟩ := List.cons.inj hy
      rw [hmore] at hrest
      refine .returned x rest hextents ((hpoint s).symm.trans hcommit) hcall ?_
        ((hpoint s').symm.trans hpoint') ((hnow s').symm.trans (hnow'.trans (hnow s))) hpos htx
      rcases hrest with ⟨hcompleted, hrest⟩ | ⟨hnot, hrest⟩
      · exact Or.inl ⟨hcompleted, List.append_cancel_right hrest⟩
      · exact Or.inr ⟨hnot, List.append_cancel_right (hrest.trans (List.cons_append).symm)⟩

/-- **A step of a call, and the invariant after it**, with what is still to be issued. -/
theorem later_call {way : Way}
    (hinv : StreamInv holder cap writes (s.later holder reads more) put)
    (hsend : ∀ c ∈ writes, c.Sendable holder cap) (hcounts : s.Counts way)
    (hstep : s.step holder way = some s') :
    CallStep cap way s s'
      ∧ ∃ put', StreamInv holder cap writes (s'.later holder reads more) put' := by
  have hstep' : (s.later holder reads more).step holder way
      = some (s'.later holder reads more) := step_later hstep
  obtain ⟨x, rest, hextents⟩ := Stream.step_some hstep
  have hcounts' : (s.later holder reads more).Counts way := (counts_later hextents).mpr hcounts
  cases way with
  | reads =>
      exact ⟨.ofLater hextents (hinv.readStep_call hsend hcounts' hstep'),
        put, hinv.readStep hsend hstep'⟩
  | writes =>
      exact ⟨.ofLater hextents (hinv.writeStep_call hsend hcounts' hstep'),
        hinv.writeStep hsend hstep'⟩

end Later

end Steps

end Sides

end TpRing
