import Tensorpipe.CudaGdrTeardownProofs
import Tensorpipe.SideImageProofs

/-! # The cuda_gdr channel — in which order the chunks are posted

    No message between two channels says which tensor it is about.  A descriptor, a
    ready-to-receive and a chunk are matched with the other end by their places in their
    streams, so each queue has to write, read and post in the order of its operations.

    An operation goes on when the one before it is far enough.  But an empty tensor is finished
    at once, and the operation behind it then no longer waits for those before the empty one.
    Descriptors are still written in order, because all operations begin when the channel is
    established.  Chunks are posted in order as long as no CUDA event completes for an operation
    that stands behind one that was not posted yet (`Line`). -/

namespace TpCudaGdr

open TpStateMachine

-- ── One queue, in order ──────────────────────────────────────────────────────

/-- What a transfer is asked for. -/
structure Transfer where
  ptr : Nat
  length : Nat
  lkey : UInt32
  localNicIdx : Nat
deriving DecidableEq, Repr

/-- The operation as it is submitted. -/
def Transfer.op (r : Transfer) (n : Nat) : Op where
  sequenceNumber := n
  ptr := r.ptr
  length := r.length
  lkey := r.lkey
  localNicIdx := r.localNicIdx

/-- The tensors that are not empty are the ones that travel. -/
def travels (requests : Nat → Transfer) (n : Nat) : Bool := (requests n).length != 0

/-- Whether a call reads from the connection. -/
def Call.isRead : Call → Bool
  | .read _ => true
  | _ => false

/-- Whether a call writes to the connection. -/
def Call.isWrite : Call → Bool
  | .write _ _ => true
  | _ => false

/-- A call that the other end does not see. -/
def Call.isQuiet (c : Call) : Bool := !(c.isRead || c.isWrite || c.isPost)

/-- What stays of the request in an operation, and what it was told of the other end. -/
structure Op.Like (requests : Nat → Transfer) (remotes : Nat → Nat) (op : Op) : Prop where
  ptr : op.ptr = (requests op.sequenceNumber).ptr
  length : op.length = (requests op.sequenceNumber).length
  lkey : op.lkey = (requests op.sequenceNumber).lkey
  localNicIdx : op.localNicIdx = (requests op.sequenceNumber).localNicIdx
  remoteNicIdx : ∀ r, op.remoteNicIdx = some r → r = remotes op.sequenceNumber

/-- The chunks of one tensor. -/
def chunksOf (queuePairs : List (List QueuePair)) (requests : Nat → Transfer)
    (remotes : Nat → Nat) (n : Nat) : List Call :=
  match queuePairAt queuePairs (requests n).localNicIdx (remotes n) with
  | none => []
  | some qp => chunkPosts ((requests n).op n) qp (remotes n)
      (ceilOfRatio (requests n).length qp.maximumMessageSize) 0

/-- Everything before this number was posted. -/
def Clear (ops : List Op) (n : Nat) : Prop :=
  ∀ op ∈ ops, op.sequenceNumber < n → OpState.OVER_IB ≤ op.state

/-- A send writes its descriptor when it begins, a recv that it is ready when it is posted. -/
def answered (kind : WcOpcode) (m : Nat) (numbers : List Nat) : List Nat :=
  match kind with
  | .WC_SEND => numbers
  | .WC_RECV => numbers.take m

/-- What a recv writes when it is posted. -/
def ready (kind : WcOpcode) (n nicIdx : Nat) : List Call :=
  match kind with
  | .WC_SEND => []
  | .WC_RECV => [.write n nicIdx]

/-- A queue of an established channel that has posted its first `m` tensors.  All operations have
    begun; what was read, written and posted is in order. -/
structure Line (kind : WcOpcode) (queuePairs : List (List QueuePair)) (requests : Nat → Transfer)
    (remotes : Nat → Nat) (next m : Nat) (io : Io Call) (ops : List Op) : Prop where
  like : ∀ op ∈ ops, op.Like requests remotes
  begun : ∀ op ∈ ops, op.state ≠ .UNINITIALIZED
  empty : ∀ op ∈ ops, travels requests op.sequenceNumber = false → op.state = .FINISHED
  within : m ≤ indexOf (travels requests) next
  reads : io.issued.filter Call.isRead = (numbersBelow (travels requests) next).map .read
  writes : io.issued.filter Call.isWrite
    = (answered kind m (numbersBelow (travels requests) next)).map
      (fun n => .write n (requests n).localNicIdx)
  posted : posts io.issued
    = ((numbersBelow (travels requests) next).take m).flatMap
      (chunksOf queuePairs requests remotes)
  passed : ∀ n < next, travels requests n = true →
    (indexOf (travels requests) n < m
      ↔ ∀ op ∈ ops, op.sequenceNumber = n → OpState.OVER_IB ≤ op.state)
  turn : ∀ op ∈ ops, op.state = .WAITING_FOR_CUDA_EVENT → op.doneWaitingForCudaEvent = true →
    Clear ops op.sequenceNumber

section Line

variable {kind : WcOpcode} {queuePairs : List (List QueuePair)} {requests : Nat → Transfer}
  {remotes : Nat → Nat} {next m : Nat} {io io' : Io Call} {ops pre post : List Op} {op op' : Op}

/-- Quiet calls neither read nor write nor post. -/
theorem filter_quiet {new : List Call} (hnew : ∀ c ∈ new, c.isQuiet = true) :
    new.filter Call.isRead = [] ∧ new.filter Call.isWrite = [] ∧ posts new = [] := by
  have hnone : ∀ c ∈ new, c.isRead = false ∧ c.isWrite = false ∧ c.isPost = false := by
    intro c hc
    have hquiet := hnew c hc
    cases c with
    | read | write | post => exact Bool.noConfusion hquiet
    | waitForCudaEvent | queuePair => exact ⟨rfl, rfl, rfl⟩
  refine ⟨List.filter_eq_nil_iff.mpr ?_, List.filter_eq_nil_iff.mpr ?_,
    List.filter_eq_nil_iff.mpr ?_⟩
  · exact fun c hc => Bool.eq_false_iff.mp (hnone c hc).1
  · exact fun c hc => Bool.eq_false_iff.mp (hnone c hc).2.1
  · exact fun c hc => Bool.eq_false_iff.mp (hnone c hc).2.2

/-- What is in the queue after one operation was replaced. -/
theorem mem_replaced (hnum : Numbered next (pre ++ op :: post)) {o : Op}
    (ho : o ∈ pre ++ op' :: post) :
    o = op' ∨ (o ∈ pre ++ op :: post ∧ o.sequenceNumber ≠ op.sequenceNumber) := by
  rcases List.mem_append.mp ho with hpre | hmid
  · exact .inr ⟨List.mem_append_left _ hpre, numbered_ne hnum (.inl hpre)⟩
  · rcases List.mem_cons.mp hmid with rfl | hpost
    · exact .inl rfl
    · exact .inr ⟨List.mem_append_right _ (List.mem_cons_of_mem _ hpost),
        numbered_ne hnum (.inr hpost)⟩

/-- The operations other than the one replaced stay. -/
theorem mem_kept {o : Op} (ho : o ∈ pre ++ op :: post) (hne : o ≠ op) : o ∈ pre ++ op' :: post := by
  rcases List.mem_append.mp ho with hpre | hmid
  · exact List.mem_append_left _ hpre
  · rcases List.mem_cons.mp hmid with rfl | hpost
    · exact absurd rfl hne
    · exact List.mem_append_right _ (List.mem_cons_of_mem _ hpost)

/-- Replacing an operation by one as far leaves all before clear. -/
theorem Clear.replace (hnum : Numbered next (pre ++ op :: post)) {n : Nat}
    (h : Clear (pre ++ op :: post) n) (hseq : op'.sequenceNumber = op.sequenceNumber)
    (hover : OpState.OVER_IB ≤ op.state → OpState.OVER_IB ≤ op'.state) :
    Clear (pre ++ op' :: post) n := by
  intro o ho hlt
  rcases mem_replaced hnum ho with rfl | ⟨hold, -⟩
  · exact hover (h op (List.mem_append_right _ (List.mem_cons_self ..)) (hseq ▸ hlt))
  · exact h o hold hlt

/-- An operation changes, but neither gets posted nor tells the other end anything. -/
theorem Line.change (hnum : Numbered next (pre ++ op :: post))
    (h : Line kind queuePairs requests remotes next m io (pre ++ op :: post))
    (hseq : op'.sequenceNumber = op.sequenceNumber) (hlike : op'.Like requests remotes)
    (hbegun : op'.state ≠ .UNINITIALIZED)
    (hempty : op.state = .FINISHED → op'.state = .FINISHED)
    (hover : OpState.OVER_IB ≤ op'.state ↔ OpState.OVER_IB ≤ op.state)
    (hturn : op'.state = .WAITING_FOR_CUDA_EVENT → op'.doneWaitingForCudaEvent = true →
      Clear (pre ++ op :: post) op.sequenceNumber)
    (hissued : ∃ new, io'.issued = io.issued ++ new ∧ ∀ c ∈ new, c.isQuiet = true) :
    Line kind queuePairs requests remotes next m io' (pre ++ op' :: post) := by
  have hself : op ∈ pre ++ op :: post := List.mem_append_right _ (List.mem_cons_self ..)
  obtain ⟨new, hnew, hquiet⟩ := hissued
  obtain ⟨hreads, hwrites, hposts⟩ := filter_quiet hquiet
  refine ⟨?_, ?_, ?_, h.within, ?_, ?_, ?_, ?_, ?_⟩
  · intro o ho
    rcases mem_replaced hnum ho with rfl | ⟨hold, -⟩
    · exact hlike
    · exact h.like o hold
  · intro o ho
    rcases mem_replaced hnum ho with rfl | ⟨hold, -⟩
    · exact hbegun
    · exact h.begun o hold
  · intro o ho hnot
    rcases mem_replaced hnum ho with rfl | ⟨hold, -⟩
    · exact hempty (h.empty op hself (hseq ▸ hnot))
    · exact h.empty o hold hnot
  · rw [hnew, List.filter_append, hreads, List.append_nil]
    exact h.reads
  · rw [hnew, List.filter_append, hwrites, List.append_nil]
    exact h.writes
  · rw [hnew, posts, List.filter_append, ← posts, ← posts, hposts, List.append_nil]
    exact h.posted
  · intro n hn htravels
    rw [h.passed n hn htravels]
    constructor
    · intro hall o ho hon
      rcases mem_replaced hnum ho with rfl | ⟨hold, -⟩
      · exact hover.mpr (hall op hself (hseq ▸ hon))
      · exact hall o hold hon
    · intro hall o ho hon
      by_cases heq : o = op
      · subst heq
        exact hover.mp (hall op' (List.mem_append_right _ (List.mem_cons_self ..)) (hseq.trans hon))
      · exact hall o (mem_kept ho heq) hon
  · intro o ho hstate hdone
    rcases mem_replaced hnum ho with rfl | ⟨hold, -⟩
    · rw [hseq]
      exact (hturn hstate hdone).replace hnum hseq hover.mpr
    · exact (h.turn o hold hstate hdone).replace hnum hseq hover.mpr

/-- The first operation that was not posted yet has the index of how many were. -/
theorem Line.turn_index (hnum : Numbered next (pre ++ op :: post))
    (h : Line kind queuePairs requests remotes next m io (pre ++ op :: post))
    (hstate : op.state = .WAITING_FOR_CUDA_EVENT)
    (hclear : Clear (pre ++ op :: post) op.sequenceNumber) :
    (numbersBelow (travels requests) next)[m]? = some op.sequenceNumber := by
  have hself : op ∈ pre ++ op :: post := List.mem_append_right _ (List.mem_cons_self ..)
  have hlt : op.sequenceNumber < next := by
    have hmid : op.sequenceNumber + post.length + 1 = next := numbered_mid hnum
    omega
  have htravels : travels requests op.sequenceNumber = true := by
    by_contra hnot
    have hfinished := h.empty op hself (Bool.eq_false_iff.mpr hnot)
    exact absurd (hstate.symm.trans hfinished) (by decide)
  have hnot : ¬ indexOf (travels requests) op.sequenceNumber < m := by
    intro hpassed
    have hover := (h.passed _ hlt htravels).mp hpassed op hself rfl
    rw [hstate] at hover
    exact absurd hover (by decide)
  refine numbersBelow_getElem?.mpr ⟨hlt, htravels, ?_⟩
  by_contra hne
  have hafter : m < (numbersBelow (travels requests) op.sequenceNumber).length := by
    show m < indexOf (travels requests) op.sequenceNumber
    omega
  -- an earlier tensor that was not posted would have to be in the queue
  obtain ⟨hearlier, hn, hindex⟩ := numbersBelow_getElem?.mp (List.getElem?_eq_getElem hafter)
  have hpassed := (h.passed _ (Nat.lt_trans hearlier hlt) hn).mpr
    (fun o ho hon => hclear o ho (hon ▸ hearlier))
  omega

/-- The operation whose turn it is gets posted. -/
theorem Line.pass (hnum : Numbered next (pre ++ op :: post))
    (h : Line kind queuePairs requests remotes next m io (pre ++ op :: post))
    (hstate : op.state = .WAITING_FOR_CUDA_EVENT)
    (hclear : Clear (pre ++ op :: post) op.sequenceNumber)
    (hseq : op'.sequenceNumber = op.sequenceNumber) (hlike : op'.Like requests remotes)
    (hstate' : op'.state = .OVER_IB) {new : List Call} (hissued : io'.issued = io.issued ++ new)
    (hreads : new.filter Call.isRead = [])
    (hwrites : new.filter Call.isWrite
      = ready kind op.sequenceNumber (requests op.sequenceNumber).localNicIdx)
    (hposts : posts new = chunksOf queuePairs requests remotes op.sequenceNumber) :
    Line kind queuePairs requests remotes next (m + 1) io' (pre ++ op' :: post) := by
  have hself : op ∈ pre ++ op :: post := List.mem_append_right _ (List.mem_cons_self ..)
  have hturn := h.turn_index hnum hstate hclear
  obtain ⟨hlt, htravels, hindex⟩ := numbersBelow_getElem?.mp hturn
  have htake : (numbersBelow (travels requests) next).take (m + 1)
      = (numbersBelow (travels requests) next).take m ++ [op.sequenceNumber] := by
    rw [List.take_add_one, hturn]
    rfl
  have hover : OpState.OVER_IB ≤ op'.state := by
    rw [hstate']
    exact Nat.le_refl _
  refine ⟨?_, ?_, ?_, ?_, ?_, ?_, ?_, ?_, ?_⟩
  · intro o ho
    rcases mem_replaced hnum ho with rfl | ⟨hold, -⟩
    · exact hlike
    · exact h.like o hold
  · intro o ho
    rcases mem_replaced hnum ho with rfl | ⟨hold, -⟩
    · rw [hstate']
      exact OpState.noConfusion
    · exact h.begun o hold
  · intro o ho hnot
    rcases mem_replaced hnum ho with rfl | ⟨hold, -⟩
    · rw [hseq, htravels] at hnot
      exact absurd hnot (by simp)
    · exact h.empty o hold hnot
  · rw [← hindex]
    exact indexOf_lt hlt htravels
  · rw [hissued, List.filter_append, hreads, List.append_nil]
    exact h.reads
  · rw [hissued, List.filter_append, hwrites, h.writes]
    cases kind with
    | WC_SEND => rw [ready, List.append_nil, answered, answered]
    | WC_RECV =>
        rw [ready, answered, answered, htake, List.map_append]
        rfl
  · rw [hissued, posts, List.filter_append, ← posts, ← posts, hposts, h.posted, htake,
      List.flatMap_append, List.flatMap_singleton]
  · intro n hn htravels'
    by_cases heq : n = op.sequenceNumber
    · subst heq
      refine iff_of_true (by omega) (fun o ho hon => ?_)
      rcases mem_replaced hnum ho with rfl | ⟨-, hne⟩
      · exact hover
      · exact absurd hon hne
    · have hother : indexOf (travels requests) n ≠ m :=
        fun hsame => heq (indexOf_inj htravels' htravels (hsame.trans hindex.symm))
      have hsame : indexOf (travels requests) n < m + 1 ↔ indexOf (travels requests) n < m := by
        omega
      rw [hsame, h.passed n hn htravels']
      constructor
      · intro hall o ho hon
        rcases mem_replaced hnum ho with rfl | ⟨hold, -⟩
        · exact hover
        · exact hall o hold hon
      · intro hall o ho hon
        refine hall o (mem_kept ho ?_) hon
        rintro rfl
        exact heq hon.symm
  · intro o ho hwaiting hdone
    rcases mem_replaced hnum ho with rfl | ⟨hold, -⟩
    · exact absurd (hstate'.symm.trans hwaiting) (by decide)
    · exact (h.turn o hold hwaiting hdone).replace hnum hseq (fun _ => hover)

/-- What the transfer of an operation issues. -/
theorem overIb_chunks {v : View} (hlike : op.Like requests remotes)
    (hremote : op.remoteNicIdx ≠ none) : ∃ found,
      overIb v io op = ({ io with
          calls := io.calls ++ chunksOf v.queuePairs requests remotes op.sequenceNumber
          issued := io.issued ++ .queuePair op.sequenceNumber found
            :: chunksOf v.queuePairs requests remotes op.sequenceNumber },
        { op with numChunks := op.numChunks
            + (chunksOf v.queuePairs requests remotes op.sequenceNumber).length }) := by
  obtain ⟨r, hr⟩ := Option.ne_none_iff_exists'.mp hremote
  obtain rfl := hlike.remoteNicIdx r hr
  have hcongr : ∀ (qp : QueuePair) (left : Nat),
      chunkPosts ((requests op.sequenceNumber).op op.sequenceNumber) qp
        (remotes op.sequenceNumber) left 0
      = chunkPosts op qp (remotes op.sequenceNumber) left 0 := by
    intro qp left
    refine @chunkPosts_congr op ((requests op.sequenceNumber).op op.sequenceNumber) rfl
      hlike.localNicIdx.symm (fun qp chunkIdx => ?_) qp _ left 0
    simp only [chunkInfo, Transfer.op, hlike.ptr, hlike.length, hlike.lkey]
  rw [overIb, hr, chunksOf, ← hlike.localNicIdx]
  dsimp only
  cases hqp : queuePairAt v.queuePairs op.localNicIdx (remotes op.sequenceNumber) with
  | none =>
      refine ⟨false, ?_⟩
      simp only [accessed, List.append_nil, List.length_nil, Nat.add_zero]
      rw [← hr]
  | some qp =>
      refine ⟨true, ?_⟩
      dsimp only
      rw [hcongr, ← hlike.length, postChunks_eq, chunkPosts_length]
      simp only [accessed, List.append_assoc, List.singleton_append]
      rw [← hr]

/-- The chunks of a tensor are posts. -/
theorem chunksOf_posts (n : Nat) : posts (chunksOf queuePairs requests remotes n)
    = chunksOf queuePairs requests remotes n
      ∧ (chunksOf queuePairs requests remotes n).filter Call.isRead = []
      ∧ (chunksOf queuePairs requests remotes n).filter Call.isWrite = [] := by
  have hall : ∀ c ∈ chunksOf queuePairs requests remotes n,
      c.isPost = true ∧ c.isRead = false ∧ c.isWrite = false := by
    intro c hc
    rw [chunksOf] at hc
    split at hc
    case h_1 => exact absurd hc List.not_mem_nil
    case h_2 qp _ =>
      obtain ⟨i, rfl⟩ := chunkPosts_all _ _ _ _ _ c hc
      exact ⟨rfl, rfl, rfl⟩
  refine ⟨List.filter_eq_self.mpr (fun c hc => (hall c hc).1), ?_, ?_⟩
  · exact List.filter_eq_nil_iff.mpr (fun c hc => Bool.eq_false_iff.mp (hall c hc).2.1)
  · exact List.filter_eq_nil_iff.mpr (fun c hc => Bool.eq_false_iff.mp (hall c hc).2.2)

/-- A queue at any point of a walk over it. -/
def Walking (numLocalNics numRemoteNics : Nat) (kind : WcOpcode) (v : View)
    (requests : Nat → Transfer) (remotes : Nat → Nat) (next : Nat) (io : Io Call)
    (ops : List Op) : Prop :=
  SideInv (capture numLocalNics numRemoteNics v.error) next next io ops
    ∧ ∃ m, Line kind v.queuePairs requests remotes next m io ops

/-- The state of an operation is not what it was asked for. -/
theorem Op.Like.withState (h : op.Like requests remotes) (state : OpState) :
    Op.Like requests remotes { op with state } :=
  ⟨h.ptr, h.length, h.lkey, h.localNicIdx, h.remoteNicIdx⟩

/-- An operation whose chunks are done finishes. -/
theorem Line.fire_callback (hnum : Numbered next (pre ++ op :: post))
    (h : Line kind queuePairs requests remotes next m io (pre ++ op :: post))
    (hstate : op.state = .OVER_IB) (error : Bool) :
    Line kind queuePairs requests remotes next m (io.callback op.sequenceNumber error)
      (pre ++ { op with state := .FINISHED } :: post) := by
  have hlike := h.like op (List.mem_append_right _ (List.mem_cons_self ..))
  have hover : OpState.OVER_IB ≤ OpState.FINISHED ↔ OpState.OVER_IB ≤ op.state := by
    rw [hstate]
    exact iff_of_true (by decide) (by decide)
  exact h.change hnum rfl (hlike.withState _) OpState.noConfusion (fun _ => rfl) hover
    OpState.noConfusion ⟨[], (List.append_nil _).symm, fun _ hc => absurd hc List.not_mem_nil⟩

/-- An operation that has read waits for its CUDA event. -/
theorem Line.fire_wait (hnum : Numbered next (pre ++ op :: post))
    (h : Line kind queuePairs requests remotes next m io (pre ++ op :: post))
    (hstate : op.state = .READING) (hunwaited : op.doneWaitingForCudaEvent = false) :
    Line kind queuePairs requests remotes next m (io.issue (.waitForCudaEvent op.sequenceNumber))
      (pre ++ { op with state := .WAITING_FOR_CUDA_EVENT } :: post) := by
  have hlike := h.like op (List.mem_append_right _ (List.mem_cons_self ..))
  have hover : OpState.OVER_IB ≤ OpState.WAITING_FOR_CUDA_EVENT
      ↔ OpState.OVER_IB ≤ op.state := by
    rw [hstate]
    exact iff_of_false (by decide) (by decide)
  refine h.change hnum rfl (hlike.withState _) OpState.noConfusion
    (fun hfin => absurd (hstate.symm.trans hfin) (by decide)) hover
    (fun _ hdone => absurd (hunwaited.symm.trans hdone) Bool.noConfusion)
    ⟨[.waitForCudaEvent op.sequenceNumber], rfl, fun c hc => ?_⟩
  rw [List.mem_singleton.mp hc]
  rfl

/-- The CUDA event is done, and the operation is posted. -/
theorem Line.fire_over {v : View} (hnum : Numbered next (pre ++ op :: post))
    (h : Line kind v.queuePairs requests remotes next m io (pre ++ op :: post))
    (hstate : op.state = .WAITING_FOR_CUDA_EVENT) (hdone : op.doneWaitingForCudaEvent = true)
    (hremote : op.remoteNicIdx ≠ none)
    (hissued : io'.issued = (overIb v io op).1.issued
      ++ ready kind op.sequenceNumber (requests op.sequenceNumber).localNicIdx) :
    Line kind v.queuePairs requests remotes next (m + 1) io'
      (pre ++ { (overIb v io op).2 with state := .OVER_IB } :: post) := by
  have hself : op ∈ pre ++ op :: post := List.mem_append_right _ (List.mem_cons_self ..)
  have hlike := h.like op hself
  obtain ⟨found, heq⟩ := @overIb_chunks requests remotes io op v hlike hremote
  obtain ⟨hposts, hreads, hwrites⟩ :=
    @chunksOf_posts v.queuePairs requests remotes op.sequenceNumber
  obtain ⟨hread, hwrite, hpost⟩ : (ready kind op.sequenceNumber
        (requests op.sequenceNumber).localNicIdx).filter Call.isRead = []
      ∧ (ready kind op.sequenceNumber (requests op.sequenceNumber).localNicIdx).filter
        Call.isWrite = ready kind op.sequenceNumber (requests op.sequenceNumber).localNicIdx
      ∧ posts (ready kind op.sequenceNumber (requests op.sequenceNumber).localNicIdx) = [] := by
    cases kind <;> exact ⟨rfl, rfl, rfl⟩
  rw [heq] at hissued ⊢
  refine h.pass hnum hstate (h.turn op hself hstate hdone) rfl ⟨hlike.ptr, hlike.length,
    hlike.lkey, hlike.localNicIdx, hlike.remoteNicIdx⟩ rfl
    (hissued.trans (List.append_assoc ..)) ?_ ?_ ?_
  · rw [List.cons_append, List.filter_cons_of_neg Bool.noConfusion, List.filter_append, hreads,
      hread, List.append_nil]
  · rw [List.cons_append, List.filter_cons_of_neg Bool.noConfusion, List.filter_append, hwrites,
      hwrite, List.nil_append]
  · rw [List.cons_append, posts, List.filter_cons_of_neg Bool.noConfusion, List.filter_append,
      ← posts, ← posts, hposts, hpost, List.append_nil]

/-- Each attempt of an operation keeps the queue in line. -/
theorem Line.fire {numLocalNics numRemoteNics : Nat} {v : View} (herror : v.error = false)
    {t : Transition (Io Call) Op OpState} (ht : t ∈ advanceOp kind v)
    (hwf : op.Wf numLocalNics numRemoteNics v.error)
    (hnum : Numbered next (pre ++ op :: post))
    (h : Line kind v.queuePairs requests remotes next m io (pre ++ op :: post))
    (hsource : op.state = t.source) {prev : OpState} (hcond : t.cond op prev = true)
    {y : Io Call × Op} (hy : runActions t.actions (io, op) = .returns y) :
    ∃ m, Line kind v.queuePairs requests remotes next m y.1
      (pre ++ withState y.2 t.target :: post) := by
  have hself : op ∈ pre ++ op :: post := List.mem_append_right _ (List.mem_cons_self ..)
  have hlike := h.like op hself
  have hdead : ∀ b : Bool, (v.error && b) = true → False := by
    intro b hb
    rw [herror] at hb
    exact Bool.noConfusion hb
  have hbegun := h.begun op hself
  cases kind with
  | WC_SEND =>
      simp only [advanceOp, advanceSendOperation, transitions, List.mem_cons, List.not_mem_nil,
        or_false] at ht
      rcases ht with rfl | rfl | rfl | rfl | rfl | rfl | rfl
      · exact absurd hsource hbegun
      · exact absurd hsource hbegun
      · exact (hdead _ hcond).elim
      · cases hy
        exact ⟨m, h.fire_wait hnum hsource (hwf.unwaited (.inr hsource))⟩
      · exact (hdead _ hcond).elim
      · cases hy
        have hdone := (Bool.and_eq_true_iff.mp (Bool.and_eq_true_iff.mp hcond).1).2
        exact ⟨m + 1, h.fire_over hnum hsource hdone (hwf.waiting hsource)
          (List.append_nil _).symm⟩
      · cases hy
        exact ⟨m, h.fire_callback hnum hsource _⟩
  | WC_RECV =>
      simp only [advanceOp, advanceRecvOperation, transitions, List.mem_cons, List.not_mem_nil,
        or_false] at ht
      rcases ht with rfl | rfl | rfl | rfl | rfl | rfl | rfl
      · exact absurd hsource hbegun
      · exact absurd hsource hbegun
      · exact (hdead _ hcond).elim
      · cases hy
        exact ⟨m, h.fire_wait hnum hsource (hwf.unwaited (.inr hsource))⟩
      · exact (hdead _ hcond).elim
      · cases hy
        have hdone := (Bool.and_eq_true_iff.mp (Bool.and_eq_true_iff.mp hcond).1).2
        refine ⟨m + 1, h.fire_over hnum hsource hdone (hwf.waiting hsource) ?_⟩
        rw [ready, ← hlike.localNicIdx]
        rfl
      · cases hy
        exact ⟨m, h.fire_callback hnum hsource _⟩

/-- Popping a finished operation keeps the queue in line. -/
theorem Line.pop (h : Line kind queuePairs requests remotes next m io (op :: ops))
    (hfinished : op.state = .FINISHED) :
    Line kind queuePairs requests remotes next m io ops := by
  have hover : OpState.OVER_IB ≤ op.state := by
    rw [hfinished]
    decide
  refine ⟨fun o ho => h.like o (List.mem_cons_of_mem _ ho),
    fun o ho => h.begun o (List.mem_cons_of_mem _ ho),
    fun o ho => h.empty o (List.mem_cons_of_mem _ ho), h.within, h.reads, h.writes, h.posted,
    ?_, ?_⟩
  · intro n hn htravels
    rw [h.passed n hn htravels, List.forall_mem_cons]
    exact and_iff_right (fun _ => hover)
  · intro o ho hstate hdone o' ho' hlt
    exact h.turn o (List.mem_cons_of_mem _ ho) hstate hdone o' (List.mem_cons_of_mem _ ho') hlt

end Line

-- ── A queue of an established channel ────────────────────────────────────────

/-- A queue between two tasks. -/
structure Live (numLocalNics numRemoteNics : Nat) (kind : WcOpcode) (v : View)
    (requests : Nat → Transfer) (remotes : Nat → Nat) (s : Side Op Call) : Prop where
  sided : Sided (capture numLocalNics numRemoteNics v.error) s.next s
  line : ∃ m, Line kind v.queuePairs requests remotes s.next m s.io s.ops

section Live

variable {numLocalNics numRemoteNics : Nat} {kind : WcOpcode} {v : View}
  {requests : Nat → Transfer} {remotes : Nat → Nat} {s : Side Op Call}

/-- A walk over the queue keeps it in line. -/
theorem preserves_walking (herror : v.error = false) (next : Nat) :
    Preserves (advanceOp kind v)
      (Walking numLocalNics numRemoteNics kind v requests remotes next) (fun _ _ => False) := by
  have hbase := sideInv_preserves (@advanceOp_sound numLocalNics numRemoteNics v kind) next next
  refine ⟨fun _ _ h => ⟨next, h.1.numbered⟩, ?_, ?_⟩
  · intro io pre op post t h ht hsource hcond
    have hwf := h.1.wf op (List.mem_append_right _ (List.mem_cons_self ..))
    have hfire := hbase.fire io pre op post t h.1 ht hsource hcond
    cases hrun : runActions t.actions (io, op) with
    | throws y => rw [hrun] at hfire; exact hfire
    | returns y =>
        rw [hrun] at hfire
        obtain ⟨m, hline⟩ := h.2
        exact ⟨hfire, hline.fire herror ht hwf h.1.numbered hsource hcond hrun⟩
  · intro io op rest h hfin
    obtain ⟨m, hline⟩ := h.2
    exact ⟨hbase.pop io op rest h.1 hfin, m, hline.pop hfin⟩

/-- Advancing an operation leaves the queue in line. -/
theorem live_advance (herror : v.error = false)
    (h : Live numLocalNics numRemoteNics kind v requests remotes s) (n : Nat) :
    Live numLocalNics numRemoteNics kind v requests remotes (s.advance (advanceOp kind v) n) := by
  refine ⟨sided_advance (advanceOp_sound kind) h.sided, ?_⟩
  have hpost := advanceOperation_preserves
    (@preserves_walking numLocalNics numRemoteNics kind v requests remotes herror s.next) n
    ⟨h.sided.inv, h.line⟩
  rw [Side.advance]
  cases hadv : advanceOperation (advanceOp kind v) s.io s.ops n with
  | throws y => rw [hadv] at hpost; exact hpost.elim
  | returns y => rw [hadv] at hpost; exact hpost.2

/-- A call reports that changes neither the state of its operation nor what it is like. -/
theorem live_report (herror : v.error = false)
    (h : Live numLocalNics numRemoteNics kind v requests remotes s) {c : Call} {n : Nat}
    {f : Op → Op} (hr : Reports (capture numLocalNics numRemoteNics v.error) s c n f)
    (hlike : ∀ op, op.sequenceNumber = n → op.Like requests remotes →
      (f op).Like requests remotes)
    (hturn : ∀ op ∈ s.ops, op.sequenceNumber = n → op.state = .WAITING_FOR_CUDA_EVENT →
      (f op).doneWaitingForCudaEvent = true → Clear s.ops n) :
    Live numLocalNics numRemoteNics kind v requests remotes
      (s.report (advanceOp kind v) c n f) := by
  obtain ⟨op, hop, rfl, -⟩ := h.sided.inv.stored c hr.outstanding n hr.captures
  have hnum := h.sided.inv.numbered
  obtain ⟨m, hline⟩ := h.line
  refine live_advance herror ⟨(sided_modify h.sided hr).1, m, ?_⟩ _
  show Line kind v.queuePairs requests remotes s.next m (s.io.reported c)
    (modifyOperation (sequenceNumber op) f s.ops)
  obtain ⟨pre, post, hsplit⟩ := List.append_of_mem hop
  rw [hsplit] at hnum hline hturn
  rw [hsplit, modifyOperation_mid hnum f]
  have hself : op ∈ pre ++ op :: post := List.mem_append_right _ (List.mem_cons_self ..)
  have hstate : (f op).state = op.state := hr.state op
  refine hline.change hnum (hr.number op) (hlike op rfl (hline.like op hself)) ?_ ?_ ?_ ?_
    ⟨[], (List.append_nil _).symm, fun _ hc => absurd hc List.not_mem_nil⟩
  · rw [hstate]
    exact hline.begun op hself
  · rw [hstate]
    exact id
  · rw [hstate]
  · rw [hstate]
    exact hturn op hself rfl

/-- Behind operations that have begun, one may begin. -/
theorem lastState_begun {ops : List Op} (h : ∀ op ∈ ops, op.state ≠ .UNINITIALIZED) :
    OpState.READING ≤ lastState (finished Op) ops := by
  rcases List.eq_nil_or_concat ops with rfl | ⟨rest, op, rfl⟩
  · exact (by decide : OpState.READING ≤ OpState.FINISHED)
  · rw [List.concat_eq_append] at h ⊢
    rw [lastState_append]
    have hstate := h op (List.mem_append_right _ (List.mem_singleton_self _))
    show OpState.READING ≤ op.state
    cases hop : op.state with
    | UNINITIALIZED => exact absurd hop hstate
    | READING | WAITING_FOR_CUDA_EVENT | OVER_IB | FINISHED => decide

/-- The calls with which an operation begins. -/
def begins (kind : WcOpcode) (requests : Nat → Transfer) (n : Nat) : List Call :=
  match kind with
  | .WC_SEND => [.write n (requests n).localNicIdx, .read n]
  | .WC_RECV => [.read n]

/-- The calls with those of an operation added. -/
def issued (io : Io Call) (new : List Call) : Io Call :=
  { io with calls := io.calls ++ new, issued := io.issued ++ new }

/-- An empty tensor is finished at once. -/
theorem transition_empty (kind : WcOpcode) (herror : v.error = false) (prev : OpState)
    (io : Io Call) {n : Nat} (hempty : travels requests n = false) :
    transition (advanceOp kind v) prev (io, (requests n).op n)
      = .returns (io.callback n false, { (requests n).op n with state := .FINISHED }) := by
  have hlength : (requests n).length = 0 := by simpa [travels] using hempty
  cases kind <;> simp [advanceOp, advanceSendOperation, advanceRecvOperation, transitions,
    transition, attemptTransition, runActions, Operation.state, callCallback, withState,
    Transfer.op, hlength, herror]

/-- Before the channel is established, no other operation begins. -/
theorem transition_idle (kind : WcOpcode) (herror : v.error = false)
    (hestablished : v.established = false) (prev : OpState) (io : Io Call) {n : Nat}
    (htravels : travels requests n = true) :
    transition (advanceOp kind v) prev (io, (requests n).op n)
      = .returns (io, (requests n).op n) := by
  have hlength : (requests n).length ≠ 0 := by simpa [travels] using htravels
  cases kind <;> simp [advanceOp, advanceSendOperation, advanceRecvOperation, transitions,
    transition, attemptTransition, Operation.state, Transfer.op, hlength, herror, hestablished]

/-- Once the channel is established, an operation begins behind one that has begun. -/
theorem transition_begin (kind : WcOpcode) (herror : v.error = false)
    (hestablished : v.established = true) {prev : OpState} (hprev : OpState.READING ≤ prev)
    (io : Io Call) {n : Nat} (htravels : travels requests n = true) :
    transition (advanceOp kind v) prev (io, (requests n).op n)
      = .returns (issued io (begins kind requests n),
        { (requests n).op n with state := .READING }) := by
  have hlength : (requests n).length ≠ 0 := by simpa [travels] using htravels
  cases kind <;> simp [advanceOp, advanceSendOperation, advanceRecvOperation, transitions,
    transition, attemptTransition, runActions, Operation.state, withState, writeDescriptor,
    readReadyToReceive, readDescriptor, Io.issue, begins, issued, Transfer.op, hlength, herror,
    hestablished, hprev]

/-- A new operation, as it is after it was advanced: finished if it is empty, else begun. -/
def started (requests : Nat → Transfer) (n : Nat) : Op :=
  { (requests n).op n with
    state := if travels requests n = true then .READING else .FINISHED }

/-- A new operation is as it was asked for. -/
theorem started_like (n : Nat) : (started requests n).Like requests remotes :=
  ⟨rfl, rfl, rfl, rfl, fun _ hr => absurd hr (Option.some_ne_none _).symm⟩

/-- A new operation is advanced at once. -/
theorem started_state (n : Nat) : (started requests n).state ≠ .UNINITIALIZED := by
  rw [started]
  split
  · exact OpState.noConfusion
  · exact OpState.noConfusion

/-- An empty tensor is finished at once. -/
theorem started_empty {n : Nat} (h : travels requests n = false) :
    (started requests n).state = .FINISHED := by
  rw [started, if_neg (ne_of_eq_of_ne h Bool.noConfusion)]

/-- Any other tensor begins to read. -/
theorem started_reading {n : Nat} (h : travels requests n = true) :
    (started requests n).state = .READING := by
  rw [started, if_pos h]

/-- A new operation at the back of a line. -/
theorem Line.push {queuePairs : List (List QueuePair)} {next m : Nat} {io io' : Io Call}
    {ops : List Op} (hnum : Numbered next ops)
    (h : Line kind queuePairs requests remotes next m io ops)
    (hissued : io'.issued = io.issued
      ++ if travels requests next = true then begins kind requests next else []) :
    Line kind queuePairs requests remotes (next + 1) m io' (ops ++ [started requests next]) := by
  have hbelow : ∀ o ∈ ops, o.sequenceNumber ≠ next := by
    intro o ho
    obtain ⟨pre, post, rfl⟩ := List.append_of_mem ho
    have hmid : o.sequenceNumber + post.length + 1 = next := numbered_mid hnum
    omega
  have hlength : m ≤ (numbersBelow (travels requests) next).length := h.within
  have htake : (numbersBelow (travels requests) (next + 1)).take m
      = (numbersBelow (travels requests) next).take m := by
    rw [numbersBelow_succ, List.take_append_of_le_length hlength]
  refine ⟨?_, ?_, ?_, ?_, ?_, ?_, ?_, ?_, ?_⟩
  · intro o ho
    rcases List.mem_append.mp ho with hold | hnew
    · exact h.like o hold
    · rw [List.mem_singleton.mp hnew]
      exact started_like next
  · intro o ho
    rcases List.mem_append.mp ho with hold | hnew
    · exact h.begun o hold
    · rw [List.mem_singleton.mp hnew]
      exact started_state next
  · intro o ho hnot
    rcases List.mem_append.mp ho with hold | hnew
    · exact h.empty o hold hnot
    · obtain rfl := List.mem_singleton.mp hnew
      exact started_empty hnot
  · exact Nat.le_trans h.within (indexOf_mono (Nat.le_succ next))
  · rw [hissued, List.filter_append, h.reads, numbersBelow_succ, List.map_append]
    by_cases htravels : travels requests next = true
    · rw [if_pos htravels, if_pos htravels]
      cases kind <;> rfl
    · rw [if_neg htravels, if_neg htravels]
      rfl
  · rw [hissued, List.filter_append, h.writes]
    cases kind with
    | WC_SEND =>
        rw [answered, answered, numbersBelow_succ, List.map_append]
        by_cases htravels : travels requests next = true
        · rw [if_pos htravels, if_pos htravels]
          rfl
        · rw [if_neg htravels, if_neg htravels]
          rfl
    | WC_RECV =>
        rw [answered, answered, htake]
        by_cases htravels : travels requests next = true
        · rw [if_pos htravels]
          exact List.append_nil _
        · rw [if_neg htravels]
          exact List.append_nil _
  · rw [hissued, posts, List.filter_append, ← posts, ← posts, h.posted, htake]
    by_cases htravels : travels requests next = true
    · rw [if_pos htravels]
      cases kind <;> exact List.append_nil _
    · rw [if_neg htravels]
      exact List.append_nil _
  · intro n hn htravels
    rcases Nat.lt_or_eq_of_le (Nat.le_of_lt_succ hn) with hlt | rfl
    · rw [h.passed n hlt htravels]
      constructor
      · intro hall o ho hon
        rcases List.mem_append.mp ho with hold | hnew
        · exact hall o hold hon
        · obtain rfl := List.mem_singleton.mp hnew
          exact absurd hon (Nat.ne_of_gt hlt)
      · exact fun hall o ho => hall o (List.mem_append_left _ ho)
    · refine iff_of_false (Nat.not_lt.mpr h.within) (fun hall => ?_)
      have hover := hall (started requests n)
        (List.mem_append_right _ (List.mem_singleton_self _)) rfl
      rw [started_reading htravels] at hover
      exact absurd hover (by decide)
  · intro o ho hstate hdone
    rcases List.mem_append.mp ho with hold | hnew
    · intro o' ho' hlt
      rcases List.mem_append.mp ho' with hold' | hnew'
      · exact h.turn o hold hstate hdone o' hold' hlt
      · obtain rfl := List.mem_singleton.mp hnew'
        obtain ⟨pre, post, rfl⟩ := List.append_of_mem hold
        have hmid : o.sequenceNumber + post.length + 1 = next := numbered_mid hnum
        have hlt' : next < o.sequenceNumber := hlt
        omega
    · obtain rfl := List.mem_singleton.mp hnew
      exact absurd hdone Bool.noConfusion

/-- Popping all finished operations keeps the queue in line. -/
theorem Line.popped {queuePairs : List (List QueuePair)} {next m : Nat} {io : Io Call}
    {ops : List Op} (h : Line kind queuePairs requests remotes next m io ops) :
    Line kind queuePairs requests remotes next m io (popFinished ops) :=
  popFinished_induct (P := Line kind queuePairs requests remotes next m io)
    (fun _ _ h hfin => h.pop hfin) ops h

/-- A new operation of an established channel. -/
theorem live_submit (herror : v.error = false) (hestablished : v.established = true)
    (h : Live numLocalNics numRemoteNics kind v requests remotes s)
    (hnic : (requests s.next).localNicIdx < numLocalNics) :
    Live numLocalNics numRemoteNics kind v requests remotes
      (s.submit (advanceOp kind v) ((requests s.next).op s.next)) := by
  obtain ⟨m, hline⟩ := h.line
  have hopen : Operation.state ((requests s.next).op s.next) ≠ finished Op :=
    OpState.noConfusion
  have hwf : ((requests s.next).op s.next).Wf numLocalNics numRemoteNics v.error :=
    ⟨hnic, fun _ hr => absurd hr (Option.some_ne_none _).symm, fun _ => rfl,
      fun _ hstate => OpState.noConfusion hstate, OpState.noConfusion,
      fun _ => rfl, fun _ => rfl⟩
  have hpushed : Sided (capture numLocalNics numRemoteNics v.error) (s.next + 1)
      { s with next := s.next + 1, ops := s.ops ++ [(requests s.next).op s.next] } :=
    sided_push h.sided rfl hopen hwf rfl
  refine ⟨sided_advance (advanceOp_sound kind) hpushed, m, ?_⟩
  have hops : s.ops ++ [(requests s.next).op s.next]
      = popFinished (s.ops ++ [(requests s.next).op s.next]) :=
    (popFinished_frontOpen hpushed.frontOpen).symm
  have htransition : transition (advanceOp kind v) (lastState (finished Op) s.ops)
      (s.io, (requests s.next).op s.next) = .returns
        (if travels requests s.next = true then issued s.io (begins kind requests s.next)
          else s.io.callback s.next false, started requests s.next) := by
    by_cases htravels : travels requests s.next = true
    · rw [started, if_pos htravels, if_pos htravels]
      exact transition_begin kind herror hestablished (lastState_begun hline.begun) s.io htravels
    · rw [started, if_neg htravels, if_neg htravels]
      exact transition_empty kind herror _ s.io (Bool.eq_false_iff.mpr htravels)
  have hsubmit : s.submit (advanceOp kind v) ((requests s.next).op s.next) = {
      next := s.next + 1
      io := if travels requests s.next = true then issued s.io (begins kind requests s.next)
        else s.io.callback s.next false
      ops := popFinished (s.ops ++ [started requests s.next]) } :=
    advance_image (x := { s with
      next := s.next + 1, ops := s.ops ++ [(requests s.next).op s.next] })
      (numbered_snoc h.sided.inv.numbered rfl) hops hopen
      (fun _ ho => absurd ho List.not_mem_nil) htransition
      rfl
  rw [hsubmit]
  refine (hline.push h.sided.inv.numbered ?_).popped
  by_cases htravels : travels requests s.next = true
  · rw [if_pos htravels, if_pos htravels]
    rfl
  · rw [if_neg htravels, if_neg htravels]
    exact (List.append_nil _).symm

end Live

-- ── A queue of a channel that is not established yet ─────────────────────────

/-- Empty tensors are finished at once, the others wait. -/
def waiting (requests : Nat → Transfer) (n : Nat) : Op :=
  { (requests n).op n with
    state := if travels requests n = true then .UNINITIALIZED else .FINISHED }

/-- A queue between two tasks, before the channel is established. -/
structure Idle (requests : Nat → Transfer) (s : Side Op Call) : Prop where
  ops : s.ops = popFinished (image (waiting requests) s.next)
  issued : s.io.issued = []

section Idle

variable {kind : WcOpcode} {v : View} {requests : Nat → Transfer} {remotes : Nat → Nat}
  {s : Side Op Call}

/-- A tensor that travels waits as it was submitted. -/
theorem waiting_travels {n : Nat} (h : travels requests n = true) :
    waiting requests n = (requests n).op n := by
  rw [waiting, if_pos h]
  rfl

/-- An empty tensor has finished. -/
theorem waiting_empty {n : Nat} (h : travels requests n = false) :
    waiting requests n = { (requests n).op n with state := .FINISHED } := by
  rw [waiting, if_neg (ne_of_eq_of_ne h Bool.noConfusion)]

/-- A new operation before the channel is established. -/
theorem idle_submit (herror : v.error = false) (hestablished : v.established = false)
    (h : Idle requests s) :
    Idle requests (s.submit (advanceOp kind v) ((requests s.next).op s.next)) := by
  have hopen : Operation.state ((requests s.next).op s.next) ≠ finished Op :=
    OpState.noConfusion
  have htransition : transition (advanceOp kind v)
      (lastState (finished Op) (image (waiting requests) s.next))
      (s.io, (requests s.next).op s.next) = .returns
        (if travels requests s.next = true then s.io else s.io.callback s.next false,
          waiting requests s.next) := by
    by_cases htravels : travels requests s.next = true
    · rw [waiting_travels htravels, if_pos htravels]
      exact transition_idle kind herror hestablished _ s.io htravels
    · have hempty := Bool.eq_false_iff.mpr htravels
      rw [waiting_empty hempty, if_neg htravels]
      exact transition_empty kind herror _ s.io hempty
  rw [submit_image (waiting requests) (waiting requests) _ (fun _ => rfl) (fun _ => rfl) h.ops rfl
    hopen htransition (fun _ _ => rfl)]
  refine ⟨rfl, ?_⟩
  by_cases htravels : travels requests s.next = true
  · rw [if_pos htravels]
    exact h.issued
  · rw [if_neg htravels]
    exact h.issued

/-- What has begun when the operations below a number have. -/
def begunBelow (kind : WcOpcode) (requests : Nat → Transfer) (k : Nat) : List Call :=
  (numbersBelow (travels requests) k).flatMap (begins kind requests)

/-- One operation more has begun. -/
theorem begunBelow_succ (k : Nat) : begunBelow kind requests (k + 1) = begunBelow kind requests k
    ++ if travels requests k = true then begins kind requests k else [] := by
  rw [begunBelow, begunBelow, numbersBelow_succ, List.flatMap_append]
  by_cases htravels : travels requests k = true
  · rw [if_pos htravels, if_pos htravels, List.flatMap_singleton]
  · rw [if_neg htravels, if_neg htravels, List.flatMap_nil]

/-- When all operations have begun, the queue is in line. -/
theorem line_started (queuePairs : List (List QueuePair)) (k : Nat) : ∀ {io : Io Call},
    io.issued = begunBelow kind requests k →
    Line kind queuePairs requests remotes k 0 io (image (started requests) k) := by
  induction k with
  | zero =>
      intro io hissued
      have hnone : io.issued = [] := hissued
      have hempty : ∀ {o : Op}, ¬ o ∈ image (started requests) 0 := List.not_mem_nil
      refine ⟨fun _ ho => absurd ho hempty, fun _ ho => absurd ho hempty,
        fun _ ho => absurd ho hempty, Nat.le_refl 0, ?_, ?_, ?_,
        fun n hn => absurd hn (Nat.not_lt_zero n), fun _ ho => absurd ho hempty⟩
      · rw [hnone]
        rfl
      · rw [hnone]
        cases kind <;> rfl
      · rw [hnone]
        rfl
  | succ k ih =>
      intro io hissued
      have hbelow : Line kind queuePairs requests remotes k 0
          { issued := begunBelow kind requests k } (image (started requests) k) := ih rfl
      rw [image_succ]
      refine hbelow.push (numbered_image (fun _ => rfl) k) ?_
      rw [hissued, begunBelow_succ]

/-- The channel is established, and everything that waited begins, in order. -/
theorem line_establish (herror : v.error = false) (hestablished : v.established = true)
    (h : Idle requests s) :
    Line kind v.queuePairs requests remotes s.next 0 (s.advanceAll (advanceOp kind v)).io
      (s.advanceAll (advanceOp kind v)).ops := by
  have hissued : s.io.issued = [] := h.issued
  have hnext : ∀ n, issued s.io (begunBelow kind requests (n + 1))
      = if travels requests n = true
        then issued (issued s.io (begunBelow kind requests n)) (begins kind requests n)
        else issued s.io (begunBelow kind requests n) := by
    intro n
    by_cases htravels : travels requests n = true
    · rw [begunBelow_succ, if_pos htravels, if_pos htravels]
      simp only [TpCudaGdr.issued, List.append_assoc]
    · rw [begunBelow_succ, if_neg htravels, if_neg htravels, List.append_nil]
  have hsame : ∀ n, travels requests n = false → waiting requests n = started requests n := by
    intro n hempty
    rw [waiting_empty hempty, started, if_neg (ne_of_eq_of_ne hempty Bool.noConfusion)]
  have hall : s.advanceAll (advanceOp kind v) = { s with
      io := issued s.io (begunBelow kind requests s.next)
      ops := popFinished (image (started requests) s.next) } := by
    refine advanceAll_image (waiting requests) (started requests)
      (fun k => issued s.io (begunBelow kind requests k)) (fun _ => rfl) (fun _ => rfl) h.ops ?_ ?_
      ?_ ?_
    · show ({ s.io with
        calls := s.io.calls ++ [], issued := s.io.issued ++ [] } : Io Call) = s.io
      rw [List.append_nil, List.append_nil]
    · intro n _
      by_cases htravels : travels requests n = true
      · have hprev : OpState.READING ≤ lastState (finished Op) (image (started requests) n) := by
          refine lastState_begun (fun op hop => ?_)
          obtain ⟨k, -, rfl⟩ := List.mem_map.mp hop
          exact started_state k
        rw [hnext n, if_pos htravels, waiting_travels htravels, started, if_pos htravels]
        exact transition_begin kind herror hestablished hprev _ htravels
      · rw [hnext n, if_neg htravels, hsame n (Bool.eq_false_iff.mpr htravels)]
        refine transition_of_not_enabled (fun henabled => ?_)
        obtain ⟨t, ht, hsource, -⟩ := henabled
        exact (@advanceOp_sound 0 0 v kind).notFinished t ht
          (hsource.symm.trans (started_empty (Bool.eq_false_iff.mpr htravels)))
    · intro n hfinished
      have hempty : travels requests n = false := by
        by_contra htravels
        rw [waiting_travels (eq_true_of_ne_false htravels)] at hfinished
        exact OpState.noConfusion hfinished
      refine ⟨(hsame n hempty).symm, ?_⟩
      rw [hnext n, if_neg (ne_of_eq_of_ne hempty Bool.noConfusion)]
    · intro n hopen hfinished
      by_cases htravels : travels requests n = true
      · exact OpState.noConfusion ((started_reading htravels).symm.trans hfinished)
      · rw [hsame n (Bool.eq_false_iff.mpr htravels)] at hopen
        exact hopen hfinished
  rw [hall]
  refine (line_started v.queuePairs s.next ?_).popped
  show s.io.issued ++ _ = _
  rw [hissued]
  rfl

end Idle

end TpCudaGdr
