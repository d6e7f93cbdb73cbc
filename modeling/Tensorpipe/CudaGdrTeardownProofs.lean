import Mathlib.Data.List.Count
import Mathlib.Tactic.Common
import Tensorpipe.CudaGdrChannelProofs

/-! # The cuda_gdr channel — teardown

    The cleanup is attempted by the error and by every chunk that completes.  It destroys the
    queue pairs, so it may run only once, and not before the callbacks of all requests have.

    The idea of the proofs: each queue keeps its own account (`Standing`), whatever walks over it;
    the counters are the requests that are outstanding in the two queues (`Core`), and the cleanup
    has run exactly when there is an error and they are zero (`Settled`).  The channel is then put
    next to the NICs that it shares (`System`), where it stays a channel on its own. -/

namespace TpCudaGdr

open TpStateMachine

-- ── One queue ────────────────────────────────────────────────────────────────

/-- Every access to `queuePairs_` found an element. -/
def Found (io : Io Call) : Prop :=
  ∀ n found, .queuePair n found ∈ io.issued → found = true

/-- A queue between two tasks; it has refused nothing as long as there is no error. -/
structure Standing (numLocalNics numRemoteNics : Nat) (error : Bool) (s : Side Op Call) :
    Prop where
  sided : ∃ bound, (error = false → bound = s.next)
    ∧ Sided (capture numLocalNics numRemoteNics error) bound s
  found : Found s.io

/-- With more NICs on the other end, or with an error, less is asked of an operation. -/
theorem Op.Wf.mono {numLocalNics numRemoteNics numRemoteNics' : Nat} {error error' : Bool} {op : Op}
    (h : op.Wf numLocalNics numRemoteNics error) (hle : numRemoteNics ≤ numRemoteNics')
    (herror : error' = false → error = false) : op.Wf numLocalNics numRemoteNics' error' :=
  ⟨h.localNic, fun r hr => Nat.lt_of_lt_of_le (h.remoteNic r hr) hle, h.unread,
    fun he => h.told (herror he), h.waiting, h.unwaited, h.chunkless⟩

/-- With more NICs on the other end, or with an error, less is asked of a queue. -/
theorem Standing.mono {numLocalNics numRemoteNics numRemoteNics' : Nat} {error error' : Bool}
    {s : Side Op Call} (h : Standing numLocalNics numRemoteNics error s)
    (hle : numRemoteNics ≤ numRemoteNics') (herror : error' = false → error = false) :
    Standing numLocalNics numRemoteNics' error' s := by
  obtain ⟨⟨bound, hbound, hsided⟩, hfound⟩ := h
  have hinv := hsided.inv
  exact ⟨⟨bound, fun he => hbound (herror he),
    ⟨hinv.numbered, hinv.bounded, fun op hop => (hinv.wf op hop).mono hle herror, hinv.counted,
      hinv.stored, hinv.once, hinv.answered⟩, hsided.frontOpen⟩, hfound⟩

section Walks

variable {numLocalNics numRemoteNics : Nat} {v : View} {kind : WcOpcode}

/-- The queue pairs that there are. -/
def Paired (numLocalNics numRemoteNics : Nat) (queuePairs : List (List QueuePair)) : Prop :=
  ∀ l < numLocalNics, ∀ r < numRemoteNics, queuePairAt queuePairs l r ≠ none

/-- The access of an operation to its queue pair finds an element. -/
theorem overIb_found (hpairs : Paired numLocalNics numRemoteNics v.queuePairs) {io : Io Call}
    {op : Op} (hwf : op.Wf numLocalNics numRemoteNics v.error)
    (hstate : op.state = .WAITING_FOR_CUDA_EVENT) (h : Found io) : Found (overIb v io op).1 := by
  obtain ⟨posts, found, heq, hposts, hmiss⟩ := overIb_spec v io op
  have hhit : found = true := by
    cases hfound : found with
    | true => rfl
    | false =>
        obtain ⟨r, hr⟩ := Option.ne_none_iff_exists'.mp (hwf.waiting hstate)
        exact absurd (hmiss hfound r hr) (hpairs _ hwf.localNic r (hwf.remoteNic r hr))
  rw [heq]
  intro n f hmem
  rcases List.mem_append.mp hmem with hold | hnew
  · exact h n f hold
  · rcases List.mem_cons.mp hnew with hhead | hpost
    · rw [(Call.queuePair.inj hhead).2]
      exact hhit
    · obtain ⟨i, r, info, heq'⟩ := hposts _ hpost
      exact nomatch heq'

/-- A call that is no access to a queue pair leaves the accesses as they were. -/
theorem issue_found {io : Io Call} (h : Found io) {c : Call} (hc : ∀ n f, c ≠ .queuePair n f) :
    Found (io.issue c) := by
  intro n f hmem
  rcases List.mem_append.mp hmem with hold | hnew
  · exact h n f hold
  · exact absurd (List.mem_singleton.mp hnew).symm (hc n f)

/-- A transition that fires finds its queue pair. -/
theorem fire_found (hpairs : v.error = false → Paired numLocalNics numRemoteNics v.queuePairs)
    {t : Transition (Io Call) Op OpState} (ht : t ∈ advanceOp kind v) {io : Io Call} {op : Op}
    {prev : OpState} (hwf : op.Wf numLocalNics numRemoteNics v.error)
    (hsource : op.state = t.source) (hcond : t.cond op prev = true) (h : Found io)
    {y : Io Call × Op} (hy : runActions t.actions (io, op) = .returns y) : Found y.1 := by
  have hlive : ∀ b c : Bool, (!v.error && b && c) = true → v.error = false := by
    intro b c hb
    exact Bool.not_eq_true' _ ▸ (Bool.and_eq_true_iff.mp (Bool.and_eq_true_iff.mp hb).1).1
  cases kind with
  | WC_SEND =>
      simp only [advanceOp, advanceSendOperation, transitions, List.mem_cons, List.not_mem_nil,
        or_false] at ht
      rcases ht with rfl | rfl | rfl | rfl | rfl | rfl | rfl
      · cases hy; exact h
      · cases hy
        refine issue_found (issue_found h ?_) ?_
        · simp
        · simp
      · cases hy; exact h
      · cases hy; exact issue_found h (by simp)
      · cases hy; exact h
      · cases hy
        exact overIb_found (hpairs (hlive _ _ hcond)) hwf hsource h
      · cases hy; exact h
  | WC_RECV =>
      simp only [advanceOp, advanceRecvOperation, transitions, List.mem_cons, List.not_mem_nil,
        or_false] at ht
      rcases ht with rfl | rfl | rfl | rfl | rfl | rfl | rfl
      · cases hy; exact h
      · cases hy
        exact issue_found h (by simp)
      · cases hy; exact h
      · cases hy; exact issue_found h (by simp)
      · cases hy; exact h
      · cases hy
        exact issue_found (overIb_found (hpairs (hlive _ _ hcond)) hwf hsource h)
          (by simp)
      · cases hy; exact h

/-- No action of an operation makes an access that fails. -/
theorem preserves_found (hpairs : v.error = false → Paired numLocalNics numRemoteNics v.queuePairs)
    (bound next : Nat) :
    Preserves (advanceOp kind v)
      (fun io ops => SideInv (capture numLocalNics numRemoteNics v.error) bound next io ops
        ∧ Found io)
      (fun _ _ => False) := by
  have hbase := sideInv_preserves (@advanceOp_sound numLocalNics numRemoteNics v kind) bound next
  refine ⟨fun _ _ h => ⟨bound, h.1.numbered⟩, ?_, ?_⟩
  · intro io pre op post t h ht hsource hcond
    have hwf := h.1.wf op (List.mem_append_right _ (List.mem_cons_self ..))
    have hfire := hbase.fire io pre op post t h.1 ht hsource hcond
    cases hrun : runActions t.actions (io, op) with
    | throws y => rw [hrun] at hfire; exact hfire
    | returns y =>
        rw [hrun] at hfire
        exact ⟨hfire, fire_found hpairs ht hwf hsource hcond h.2 hrun⟩
  · intro io op rest h hfin
    exact ⟨hbase.pop io op rest h.1 hfin, h.2⟩

/-- What a walk over the queue does, from `s` to `s'`. -/
structure Walked (v : View) (s s' : Side Op Call) : Prop where
  next : s'.next = s.next
  extends_ : Extends s.io s'.io
  silent : v.error = true → s'.io.issued = s.io.issued

/-- Advancing one operation is a walk. -/
theorem advance_walked (kind : WcOpcode) (v : View) (n : Nat) (s : Side Op Call) :
    Walked v s (s.advance (advanceOp kind v) n) where
  next := rfl
  extends_ := advanceOperation_keeps (advanceOp_extends kind v s.io).live (Extends.refl _)
  silent herror := advanceOperation_keeps (I := fun io : Io Call => io.issued = s.io.issued)
    (advanceOp_silent kind herror s.io.issued) rfl

/-- Advancing all operations is a walk. -/
theorem advanceAll_walked (kind : WcOpcode) (v : View) (s : Side Op Call) :
    Walked v s (s.advanceAll (advanceOp kind v)) where
  next := rfl
  extends_ := advanceAllOperations_keeps (advanceOp_extends kind v s.io).live (Extends.refl _)
  silent herror := advanceAllOperations_keeps (I := fun io : Io Call => io.issued = s.io.issued)
    (advanceOp_silent kind herror s.io.issued) rfl

/-- Advancing one operation leaves the queue standing. -/
theorem advance_standing
    (hpairs : v.error = false → Paired numLocalNics numRemoteNics v.queuePairs)
    {s : Side Op Call} (h : Standing numLocalNics numRemoteNics v.error s) (n : Nat) :
    Standing numLocalNics numRemoteNics v.error (s.advance (advanceOp kind v) n) := by
  obtain ⟨⟨bound, hbound, hsided⟩, hfound⟩ := h
  refine ⟨⟨bound, hbound, sided_advance (advanceOp_sound kind) hsided⟩, ?_⟩
  have hpost := advanceOperation_preserves (@preserves_found _ _ v kind hpairs bound s.next) n
    ⟨hsided.inv, hfound⟩
  rw [Side.advance]
  cases hadv : advanceOperation (advanceOp kind v) s.io s.ops n with
  | throws y => rw [hadv] at hpost; exact hpost.elim
  | returns y => rw [hadv] at hpost; exact hpost.2

/-- Advancing all operations leaves the queue standing. -/
theorem advanceAll_standing
    (hpairs : v.error = false → Paired numLocalNics numRemoteNics v.queuePairs)
    {s : Side Op Call} (h : Standing numLocalNics numRemoteNics v.error s) :
    Standing numLocalNics numRemoteNics v.error (s.advanceAll (advanceOp kind v)) := by
  obtain ⟨⟨bound, hbound, hsided⟩, hfound⟩ := h
  refine ⟨⟨bound, hbound, sided_advanceAll (advanceOp_sound kind) hsided⟩, ?_⟩
  have hpost := advanceAllOperations_preserves (@preserves_found _ _ v kind hpairs bound s.next)
    ⟨hsided.inv, hfound⟩
  rw [Side.advanceAll]
  cases hadv : advanceAllOperations (advanceOp kind v) s.io s.ops with
  | throws y => rw [hadv] at hpost; exact hpost.elim
  | returns y => rw [hadv] at hpost; exact hpost.2

-- ── Reports ──────────────────────────────────────────────────────────────────

/-- The descriptor that was read says which NIC the peer uses. -/
theorem read_reports {s : Side Op Call} {n nicIdx : Nat} {error : Bool}
    (hcall : .read n ∈ s.io.calls) (hnic : error = false → nicIdx < numRemoteNics) :
    Reports (capture numLocalNics numRemoteNics error) s (.read n) n (fun op => { op with
      doneReading := true
      remoteNicIdx := if error then op.remoteNicIdx else some nicIdx }) where
  outstanding := hcall
  captures := rfl
  state _ := rfl
  number _ := rfl
  pending := by
    intro op _ _ hwf hwaits
    obtain ⟨hstate, hundone⟩ := hwaits
    refine ⟨⟨hwf.localNic, ?_, ?_, ?_, ?_, hwf.unwaited, hwf.chunkless⟩, ?_⟩
    · intro r hr
      cases error with
      | true => exact hwf.remoteNic r hr
      | false =>
          obtain rfl := Option.some.inj hr
          exact hnic rfl
    · intro hun
      exact nomatch hstate.symm.trans hun
    · intro hlive _ _
      rw [hlive]
      exact nofun
    · intro hwaiting
      exact nomatch hstate.symm.trans hwaiting
    · simp only [capture, hstate, hundone]
      rfl
  fits := by
    intro op c hfits hpos
    cases c with
    | read m =>
        obtain ⟨hstate, -⟩ := hfits
        simp only [capture, hstate] at hpos
        exact absurd hpos (Nat.lt_irrefl 0)
    | waitForCudaEvent | post | write | queuePair => exact hfits

/-- The CUDA event of an operation has happened. -/
theorem wait_reports {s : Side Op Call} {n : Nat} {error : Bool}
    (hcall : .waitForCudaEvent n ∈ s.io.calls) :
    Reports (capture numLocalNics numRemoteNics error) s (.waitForCudaEvent n) n
      (fun op => { op with doneWaitingForCudaEvent := true }) where
  outstanding := hcall
  captures := rfl
  state _ := rfl
  number _ := rfl
  pending := by
    intro op _ _ hwf hwaits
    obtain ⟨hstate, hundone⟩ := hwaits
    refine ⟨⟨hwf.localNic, hwf.remoteNic, hwf.unread, hwf.told, hwf.waiting, ?_, hwf.chunkless⟩, ?_⟩
    · rintro (hun | hreading)
      · exact nomatch hstate.symm.trans hun
      · exact nomatch hstate.symm.trans hreading
    · simp only [capture, hstate, hundone]
      rfl
  fits := by
    intro op c hfits hpos
    cases c with
    | waitForCudaEvent m =>
        obtain ⟨hstate, -⟩ := hfits
        simp only [capture, hstate] at hpos
        exact absurd hpos (Nat.lt_irrefl 0)
    | read | post | write | queuePair => exact hfits

/-- The NIC has finished the request of a chunk, or has given it up. -/
theorem post_reports {s : Side Op Call} {n i l r : Nat} {info : Info} {error : Bool}
    (hcall : .post n i l r info ∈ s.io.calls) :
    Reports (capture numLocalNics numRemoteNics error) s (.post n i l r info) n
      (fun op => { op with numChunks := op.numChunks - 1 }) where
  outstanding := hcall
  captures := rfl
  state _ := rfl
  number _ := rfl
  pending := by
    intro op _ _ hwf hwaits
    obtain ⟨hstate, hpos⟩ := hwaits
    refine ⟨⟨hwf.localNic, hwf.remoteNic, hwf.unread, hwf.told, hwf.waiting, hwf.unwaited, ?_⟩, ?_⟩
    · intro hne
      exact absurd hstate hne
    · simp only [capture, hstate]
      exact Nat.sub_add_cancel hpos
  fits := by
    intro op c hfits hpos
    cases c with
    | post m =>
        obtain ⟨hstate, -⟩ := hfits
        simp only [capture, hstate] at hpos
        exact ⟨hstate, hpos⟩
    | read | waitForCudaEvent | write | queuePair => exact hfits

/-- A call reports, and the queue is walked. -/
theorem report_standing
    (hpairs : v.error = false → Paired numLocalNics numRemoteNics v.queuePairs)
    {s : Side Op Call} (h : Standing numLocalNics numRemoteNics v.error s) {c : Call} {n : Nat}
    {f : Op → Op} (hr : Reports (capture numLocalNics numRemoteNics v.error) s c n f) :
    Standing numLocalNics numRemoteNics v.error (s.report (advanceOp kind v) c n f) := by
  obtain ⟨⟨bound, hbound, hsided⟩, hfound⟩ := h
  have hmodified : Standing numLocalNics numRemoteNics v.error
      { s with io := s.io.reported c, ops := modifyOperation n f s.ops } :=
    ⟨⟨bound, hbound, (sided_modify hsided hr).1⟩, hfound⟩
  exact advance_standing hpairs hmodified n

/-- A new operation leaves the queue standing. -/
theorem submit_standing
    (hpairs : v.error = false → Paired numLocalNics numRemoteNics v.queuePairs)
    (herror : v.error = false) {s : Side Op Call}
    (h : Standing numLocalNics numRemoteNics v.error s) {op : Op}
    (hnumber : op.sequenceNumber = s.next) (hstate : op.state = .UNINITIALIZED)
    (hwf : op.Wf numLocalNics numRemoteNics v.error) :
    Standing numLocalNics numRemoteNics v.error (s.submit (advanceOp kind v) op) := by
  obtain ⟨⟨bound, hbound, hsided⟩, hfound⟩ := h
  obtain rfl := hbound herror
  have hpending : (capture numLocalNics numRemoteNics v.error).pending op = 0 := by
    simp only [capture, hstate]
  have hopen : Operation.state op ≠ finished Op := by
    show op.state ≠ .FINISHED
    rw [hstate]
    simp
  have hpushed : Standing numLocalNics numRemoteNics v.error
      { s with next := s.next + 1, ops := s.ops ++ [op] } :=
    ⟨⟨_, fun _ => rfl, sided_push hsided hnumber hopen hwf hpending⟩, hfound⟩
  exact advance_standing hpairs hpushed s.next

end Walks

-- ── The invariant of a channel ───────────────────────────────────────────────

/-- The requests among the calls. -/
def posts (calls : List Call) : List Call := calls.filter Call.isPost

namespace ChannelImpl

/-- All but when the cleanup has run. -/
structure Core (x : ChannelImpl) : Prop where
  gpus : ∀ l ∈ x.gpuToNic, l < x.numLocalNics
  live : x.error = false → x.cleanups = 0
  pairs : x.cleanups = 0 → Paired x.numLocalNics x.numRemoteNics x.queuePairs
  cleared : x.cleanups ≠ 0 → x.queuePairs = []
  unmet : x.state = .WAITING_FOR_HANDSHAKE_NUM_NICS → x.numRemoteNics = 0
  standing : ∀ kind, Standing x.numLocalNics x.numRemoteNics x.error (x.side kind)
  counted : ∀ kind, x.numInFlight.get kind = ((posts (x.side kind).io.calls).length : Int)
  unenrolled : x.unenrolled = x.cleanups
  inRange : x.outOfRange = false

/-- The cleanup has run once if there is an error and nothing is in flight, else not at all. -/
def Settled (x : ChannelImpl) : Prop :=
  x.cleanups = if x.error = true ∧ x.numInFlight.send = 0 ∧ x.numInFlight.recv = 0 then 1 else 0

/-- The invariant between two tasks, the cleanup included. -/
structure Inv (x : ChannelImpl) : Prop extends Core x where
  settled : x.Settled

/-- What is never undone: the error, and that nothing is called after it. -/
structure Later (x x' : ChannelImpl) : Prop where
  error : x.error = true → x'.error = true
  silent : x.error = true → ∀ kind, (x'.side kind).io.issued = (x.side kind).io.issued

/-- A channel is no earlier than itself. -/
theorem Later.refl (x : ChannelImpl) : Later x x :=
  ⟨id, fun _ _ => rfl⟩

/-- The order of the channels of a run is transitive. -/
theorem Later.trans {x x' x'' : ChannelImpl} (h : Later x x') (h' : Later x' x'') : Later x x'' :=
  ⟨fun herror => h'.error (h.error herror), fun herror kind =>
    (h'.silent (h.error herror) kind).trans (h.silent herror kind)⟩

section Steps

variable {x : ChannelImpl} {kind : WcOpcode} {s' : Side Op Call}

/-- Without an error every two NICs have their queue pair. -/
theorem Core.paired (h : Core x) (herror : x.view.error = false) :
    Paired x.numLocalNics x.numRemoteNics x.view.queuePairs :=
  h.pairs (h.live herror)

/-- The side that was replaced is the new one. -/
theorem side_withSide_self (x : ChannelImpl) (kind : WcOpcode) (s' : Side Op Call) :
    (x.withSide kind s').side kind = s' :=
  PerKind.get_set_self ..

/-- The other side is as it was. -/
theorem side_withSide_of_ne (x : ChannelImpl) {kind kind' : WcOpcode} (s' : Side Op Call)
    (h : kind' ≠ kind) : (x.withSide kind s').side kind' = x.side kind' :=
  PerKind.get_set_of_ne _ _ h

/-- One queue and its counter are replaced. -/
theorem core_set (h : Core x)
    (hs : Standing x.numLocalNics x.numRemoteNics x.error s') {m : Int}
    (hm : m = (posts s'.io.calls).length) :
    Core { x with sides := x.sides.set kind s', numInFlight := x.numInFlight.set kind m } := by
  refine ⟨h.gpus, h.live, h.pairs, h.cleared, h.unmet, ?_, ?_, h.unenrolled, h.inRange⟩
  · intro kind'
    by_cases hkind : kind' = kind
    · subst hkind
      rw [side, PerKind.get_set_self]
      exact hs
    · rw [side, PerKind.get_set_of_ne _ _ hkind]
      exact h.standing kind'
  · intro kind'
    by_cases hkind : kind' = kind
    · subst hkind
      rw [side, PerKind.get_set_self, PerKind.get_set_self]
      exact hm
    · rw [side, PerKind.get_set_of_ne _ _ hkind, PerKind.get_set_of_ne _ _ hkind]
      exact h.counted kind'

/-- The requests that a walk has posted are outstanding behind those that were. -/
theorem posts_of_extends {s s' : Side Op Call} (h : Extends s.io s'.io) :
    posts s'.io.calls = posts s.io.calls ++ newPosts s s' := by
  obtain ⟨new, hissued, hcalls⟩ := h
  rw [newPosts, hissued, List.drop_left]
  exact hcalls

/-- A walk that issues nothing posts nothing. -/
theorem newPosts_of_issued {s s' : Side Op Call} (h : s'.io.issued = s.io.issued) :
    newPosts s s' = [] := by
  rw [newPosts, h, List.drop_length]
  rfl

/-- A standing side may take the place of the old one, if its posts are counted. -/
theorem withSide_core (h : Core x)
    (hs : Standing x.numLocalNics x.numRemoteNics x.error s')
    (hposts : (posts s'.io.calls).length
      = (posts (x.side kind).io.calls).length + (newPosts (x.side kind) s').length) :
    Core (x.withSide kind s') := by
  refine core_set h hs ?_
  rw [h.counted kind, hposts]
  push_cast
  rfl

/-- A queue that posts nothing after the error keeps the cleanup as it is. -/
theorem withSide_settled (h : Inv x)
    (hsilent : x.error = true → s'.io.issued = (x.side kind).io.issued) :
    (x.withSide kind s').Settled := by
  have hsettled := h.settled
  cases herror : x.error with
  | false =>
      rw [Settled, if_neg]
      · exact h.live herror
      · exact fun hcond => Bool.false_ne_true (herror.symm.trans hcond.1)
  | true =>
      have hcount : (x.withSide kind s').numInFlight = x.numInFlight := by
        refine PerKind.ext_get (fun kind' => ?_)
        show (x.numInFlight.set kind _).get kind' = _
        by_cases hkind : kind' = kind
        · subst hkind
          rw [PerKind.get_set_self, newPosts_of_issued (hsilent herror)]
          exact Int.add_zero _
        · rw [PerKind.get_set_of_ne _ _ hkind]
      rw [Settled, hcount]
      exact hsettled

/-- A standing side keeps the whole invariant, if it posts nothing in error. -/
theorem withSide_inv (h : Inv x)
    (hs : Standing x.numLocalNics x.numRemoteNics x.error s')
    (hposts : (posts s'.io.calls).length
      = (posts (x.side kind).io.calls).length + (newPosts (x.side kind) s').length)
    (hsilent : x.error = true → s'.io.issued = (x.side kind).io.issued) :
    Inv (x.withSide kind s') :=
  ⟨withSide_core h.toCore hs hposts, withSide_settled h hsilent⟩

/-- A side that issues nothing in error undoes nothing. -/
theorem withSide_later (hsilent : x.error = true → s'.io.issued = (x.side kind).io.issued) :
    Later x (x.withSide kind s') := by
  refine ⟨id, fun herror kind' => ?_⟩
  by_cases hkind : kind' = kind
  · subst hkind
    rw [side_withSide_self]
    exact hsilent herror
  · rw [side_withSide_of_ne _ _ hkind]

-- ── The error ────────────────────────────────────────────────────────────────

/-- Advancing all operations of a side keeps the counters right. -/
theorem advanceAll_core (h : Core x) (kind : WcOpcode) : Core (x.advanceAll kind) := by
  have hwalked := advanceAll_walked kind x.view (x.side kind)
  refine withSide_core h (advanceAll_standing (v := x.view) h.paired (h.standing kind)) ?_
  rw [posts_of_extends hwalked.extends_, List.length_append]

/-- Advancing all operations of a side undoes nothing. -/
theorem advanceAll_later (x : ChannelImpl) (kind : WcOpcode) : Later x (x.advanceAll kind) :=
  withSide_later (advanceAll_walked kind x.view (x.side kind)).silent

/-- A walk leaves the calls that are outstanding alone. -/
theorem advanceAll_keeps (h : Core x) (kind kind' : WcOpcode) {c : Call}
    (hc : c ∈ (x.side kind').io.calls) : c ∈ ((x.advanceAll kind).side kind').io.calls := by
  by_cases hkind : kind' = kind
  · subst hkind
    obtain ⟨⟨bound, -, hsided⟩, -⟩ := h.standing kind'
    rw [advanceAll, side_withSide_self]
    exact TpStateMachine.advanceAll_calls (advanceOp_sound (v := x.view) kind') hsided.inv hc
  · rw [advanceAll, side_withSide_of_ne _ _ hkind]
    exact hc

/-- Where every two NICs have their queue pair, the loop over them goes out of no range. -/
theorem accessAll_eq (hpairs : Paired x.numLocalNics x.numRemoteNics x.queuePairs) :
    x.accessAll = x := by
  have hall : ((List.range x.numLocalNics).all (fun l => (List.range x.numRemoteNics).all
      (fun r => (queuePairAt x.queuePairs l r).isSome))) = true := by
    refine List.all_eq_true.mpr (fun l hl => List.all_eq_true.mpr (fun r hr => ?_))
    exact Option.isSome_iff_ne_none.mpr
      (hpairs l (List.mem_range.mp hl) r (List.mem_range.mp hr))
  rw [accessAll, hall]
  simp only [Bool.not_true, Bool.or_false]

/-- The cleanup runs at the attempt that finds nothing in flight. -/
theorem tryCleanup_inv (h : Core x) (hcleanups : x.cleanups = 0) : Inv x.tryCleanup := by
  rw [tryCleanup]
  by_cases herror : x.error = true
  · rw [if_pos herror]
    by_cases hquiet : x.numInFlight.send = 0 ∧ x.numInFlight.recv = 0
    · rw [if_pos hquiet]
      refine ⟨⟨h.gpus, ?_, ?_, fun _ => rfl, h.unmet, h.standing, h.counted, ?_, h.inRange⟩, ?_⟩
      · exact fun hfalse => absurd (herror.symm.trans hfalse) (Bool.false_ne_true ·.symm)
      · exact fun hzero => absurd hzero (Nat.succ_ne_zero _)
      · exact congrArg (· + 1) h.unenrolled
      · have hcond : x.cleanup.error = true ∧ x.cleanup.numInFlight.send = 0
            ∧ x.cleanup.numInFlight.recv = 0 := ⟨herror, hquiet⟩
        rw [Settled, if_pos hcond]
        exact congrArg (· + 1) hcleanups
    · rw [if_neg hquiet]
      refine ⟨h, ?_⟩
      rw [Settled, if_neg (fun hcond => hquiet hcond.2), hcleanups]
  · rw [if_neg herror]
    refine ⟨h, ?_⟩
    rw [Settled, if_neg (fun hcond => herror hcond.1), hcleanups]

/-- The cleanup changes neither the error nor the operations. -/
theorem tryCleanup_frame (x : ChannelImpl) :
    x.tryCleanup.error = x.error ∧ x.tryCleanup.state = x.state
      ∧ x.tryCleanup.numRemoteNics = x.numRemoteNics
      ∧ ∀ kind, x.tryCleanup.side kind = x.side kind := by
  rw [tryCleanup]
  split
  · split
    · exact ⟨rfl, rfl, rfl, fun _ => rfl⟩
    · exact ⟨rfl, rfl, rfl, fun _ => rfl⟩
  · exact ⟨rfl, rfl, rfl, fun _ => rfl⟩

/-- What dealing with an error leaves alone. -/
structure Kept (x x' : ChannelImpl) : Prop where
  state : x'.state = x.state
  numRemoteNics : x'.numRemoteNics = x.numRemoteNics
  calls : ∀ kind, ∀ c ∈ (x.side kind).io.calls, c ∈ (x'.side kind).io.calls

/-- Handling the error for the first time leaves the invariant. -/
theorem handleErrorImpl_inv (h : Core x) (hcleanups : x.cleanups = 0) :
    Inv x.handleErrorImpl ∧ Later x x.handleErrorImpl ∧ Kept x x.handleErrorImpl
      ∧ x.handleErrorImpl.error = x.error := by
  have hsend := advanceAll_core h .WC_SEND
  have hrecv := advanceAll_core hsend .WC_RECV
  have haccess := accessAll_eq (hrecv.pairs hcleanups)
  have hlater := (advanceAll_later x .WC_SEND).trans (advanceAll_later _ .WC_RECV)
  rw [handleErrorImpl, haccess]
  obtain ⟨herror, hstate, hnics, hside⟩ :=
    tryCleanup_frame ((x.advanceAll .WC_SEND).advanceAll .WC_RECV)
  refine ⟨tryCleanup_inv hrecv hcleanups, ⟨fun he => ?_, fun he kind => ?_⟩,
    ⟨hstate, hnics, fun kind c hc => ?_⟩, herror⟩
  · rw [herror]
    exact he
  · rw [hside]
    exact hlater.silent he kind
  · rw [hside]
    exact advanceAll_keeps hsend .WC_RECV kind (advanceAll_keeps h .WC_SEND kind hc)

/-- An error is handled only by a channel that had none. -/
theorem error_of_not_skipped {failed : Bool} (h : ¬ (x.error || !failed) = true) :
    x.error = false := by
  cases herror : x.error with
  | false => rfl
  | true => rw [herror] at h; exact absurd rfl h

/-- The error is set before anything is told. -/
theorem core_failed (h : Core x) : Core { x with error := true } :=
  ⟨h.gpus, nofun, h.pairs, h.cleared, h.unmet,
    fun kind => (h.standing kind).mono (Nat.le_refl _) nofun, h.counted, h.unenrolled, h.inRange⟩

/-- Setting an error leaves the invariant, and the error is set. -/
theorem setError_inv (h : Inv x) (failed : Bool) :
    Inv (x.setError failed) ∧ Later x (x.setError failed) ∧ Kept x (x.setError failed)
      ∧ (failed = true → (x.setError failed).error = true) := by
  rw [setError]
  split
  · rename_i hskip
    refine ⟨h, Later.refl x, ⟨rfl, rfl, fun _ _ hc => hc⟩, fun hfailed => ?_⟩
    rw [hfailed, Bool.not_true, Bool.or_false] at hskip
    exact hskip
  · rename_i hskip
    have herror := error_of_not_skipped hskip
    have hcore := core_failed h.toCore
    obtain ⟨hinv, -, hkept, hafter⟩ := handleErrorImpl_inv hcore (h.live herror)
    refine ⟨hinv, ⟨fun _ => hafter, fun hset => ?_⟩,
      ⟨hkept.state, hkept.numRemoteNics, hkept.calls⟩, fun _ => hafter⟩
    exact absurd (herror.symm.trans hset) Bool.false_ne_true

end Steps

end ChannelImpl

-- ── The tasks ────────────────────────────────────────────────────────────────

namespace ChannelImpl

/-- The requests whose callback a task is. -/
def Task.done : Task → WcOpcode → List Call
  | .report kind call _ _, kind' => if kind = kind' then posts [call] else []
  | _, _ => []

/-- From `x` to `x'` some calls were issued, and these requests are outstanding no more. -/
def Stepped (x x' : ChannelImpl) (done : WcOpcode → List Call) : Prop :=
  ∀ kind, ∃ new, (x'.side kind).io.issued = (x.side kind).io.issued ++ new
    ∧ posts (x'.side kind).io.calls
      = (posts (x.side kind).io.calls).diff (done kind) ++ posts new

section Tasks

variable {x x' x'' : ChannelImpl} {kind : WcOpcode} {s' : Side Op Call}

/-- The error comes first, and issues nothing. -/
theorem Stepped.after {done : WcOpcode → List Call} (h : Stepped x x' (fun _ => []))
    (hissued : ∀ kind, (x'.side kind).io.issued = (x.side kind).io.issued)
    (h' : Stepped x' x'' done) : Stepped x x'' done := by
  intro kind
  obtain ⟨new, hnew, hposts⟩ := h kind
  obtain ⟨new', hnew', hposts'⟩ := h' kind
  have hnone : new = [] := by
    rw [hissued kind] at hnew
    exact List.append_right_eq_self.mp hnew.symm
  rw [hnone, List.diff_nil, show posts ([] : List Call) = [] from rfl, List.append_nil] at hposts
  exact ⟨new', by rw [hnew', hissued kind], by rw [hposts', hposts]⟩

/-- Two steps in which nothing has completed are one. -/
theorem Stepped.trans (h : Stepped x x' (fun _ => [])) (h' : Stepped x' x'' (fun _ => [])) :
    Stepped x x'' (fun _ => []) := by
  intro kind
  obtain ⟨new, hnew, hposts⟩ := h kind
  obtain ⟨new', hnew', hposts'⟩ := h' kind
  refine ⟨new ++ new', by rw [hnew', hnew, List.append_assoc], ?_⟩
  rw [hposts', List.diff_nil, hposts, List.diff_nil, List.append_assoc]
  congr 1
  exact (List.filter_append ..).symm

/-- A task that leaves both sides alone issues and completes nothing. -/
theorem stepped_of_sides {done : WcOpcode → List Call}
    (h : ∀ kind, x'.side kind = x.side kind) (hdone : ∀ kind, done kind = []) :
    Stepped x x' done := by
  intro kind
  refine ⟨[], by rw [h kind, List.append_nil], ?_⟩
  rw [h kind, hdone kind, List.diff_nil]
  exact (List.append_nil _).symm

/-- One queue is walked, after the call `c` of it has reported, if any. -/
theorem withSide_stepped {done : WcOpcode → List Call}
    (hself : ∃ new, s'.io.issued = (x.side kind).io.issued ++ new
      ∧ posts s'.io.calls = (posts (x.side kind).io.calls).diff (done kind) ++ posts new)
    (hdone : ∀ kind', kind' ≠ kind → done kind' = []) :
    Stepped x (x.withSide kind s') done := by
  intro kind'
  by_cases hkind : kind' = kind
  · subst hkind
    rw [side_withSide_self]
    exact hself
  · rw [side_withSide_of_ne _ _ hkind, hdone kind' hkind, List.diff_nil]
    exact ⟨[], (List.append_nil _).symm, (List.append_nil _).symm⟩

/-- Advancing all operations of a side completes nothing. -/
theorem advanceAll_stepped (x : ChannelImpl) (kind : WcOpcode) :
    Stepped x (x.advanceAll kind) (fun _ => []) := by
  refine withSide_stepped ?_ (fun _ _ => rfl)
  rw [List.diff_nil]
  exact (advanceAll_walked kind x.view (x.side kind)).extends_

/-- Setting an error issues nothing new and completes nothing. -/
theorem setError_stepped (h : Inv x) (failed : Bool) :
    Stepped x (x.setError failed) (fun _ => [])
      ∧ ∀ kind, ((x.setError failed).side kind).io.issued = (x.side kind).io.issued := by
  rw [setError]
  split
  · exact ⟨stepped_of_sides (fun _ => rfl) (fun _ => rfl), fun _ => rfl⟩
  · rename_i hskip
    have herror := error_of_not_skipped hskip
    have hcore := core_failed h.toCore
    have hlater := (handleErrorImpl_inv hcore (h.live herror)).2.1
    refine ⟨?_, hlater.silent rfl⟩
    have hrecv := advanceAll_core (advanceAll_core hcore .WC_SEND) .WC_RECV
    have haccess := accessAll_eq (hrecv.pairs (h.live herror))
    have hwalks := (advanceAll_stepped { x with error := true } .WC_SEND).trans
      (advanceAll_stepped _ .WC_RECV)
    rw [handleErrorImpl, haccess]
    have hside := (tryCleanup_frame
      ((({ x with error := true } : ChannelImpl).advanceAll .WC_SEND).advanceAll .WC_RECV)).2.2.2
    intro kind
    rw [hside kind]
    exact hwalks kind

/-- What every task does: the invariant is kept, and nothing of what is never undone. -/
structure TaskSpec (x x' : ChannelImpl) (done : WcOpcode → List Call) : Prop where
  inv : Inv x'
  later : Later x x'
  stepped : Stepped x x' done

/-- The close of a channel, as a task. -/
theorem setError_spec (h : Inv x) (failed : Bool) :
    TaskSpec x (x.setError failed) (fun _ => []) := by
  obtain ⟨hinv, hlater, -, -⟩ := setError_inv h failed
  exact ⟨hinv, hlater, (setError_stepped h failed).1⟩

/-- A callback from below sets the error, if any, and goes on from there. -/
theorem TaskSpec.after_setError (h : Inv x) (failed : Bool) {done : WcOpcode → List Call}
    (h' : TaskSpec (x.setError failed) x'' done) : TaskSpec x x'' done := by
  obtain ⟨-, hlater, -, -⟩ := setError_inv h failed
  obtain ⟨hstepped, hissued⟩ := setError_stepped h failed
  exact ⟨h'.inv, hlater.trans h'.later, hstepped.after hissued h'.stepped⟩

/-- A call of `send` or `recv`, as a task. -/
theorem transferFromLoop_spec (h : Inv x) (kind : WcOpcode) {gpuIdx : Nat}
    (hgpu : gpuIdx < x.gpuToNic.length) (ptr length : Nat) (lkey : UInt32) :
    TaskSpec x (x.transferFromLoop kind gpuIdx ptr length lkey) (fun _ => []) := by
  rw [transferFromLoop]
  split
  · rename_i herror
    -- refused, with an error for the callback
    have hsame : (x.side kind).refuse.io.issued = (x.side kind).io.issued := rfl
    have hstanding := h.standing kind
    obtain ⟨⟨bound, hbound, hsided⟩, hfound⟩ := hstanding
    have hrefused : Standing x.numLocalNics x.numRemoteNics x.error (x.side kind).refuse :=
      ⟨⟨bound, fun hfalse => absurd (herror.symm.trans hfalse) (Bool.false_ne_true ·.symm),
        sided_refuse hsided⟩, hfound⟩
    refine ⟨withSide_inv h hrefused ?_ (fun _ => hsame), withSide_later (fun _ => hsame), ?_⟩
    · rw [newPosts_of_issued hsame]
      rfl
    · refine withSide_stepped ⟨[], (List.append_nil _).symm, ?_⟩ (fun _ _ => rfl)
      rw [List.diff_nil]
      exact (List.append_nil _).symm
  · rename_i herror
    have hfalse : x.view.error = false := Bool.eq_false_iff.mpr herror
    have hnic : x.gpuToNic[gpuIdx]?.getD 0 < x.numLocalNics := by
      rw [List.getElem?_eq_getElem hgpu]
      exact h.gpus _ (List.getElem_mem hgpu)
    let op : Op :=
      { sequenceNumber := (x.side kind).next, ptr, length, lkey
        localNicIdx := x.gpuToNic[gpuIdx]?.getD 0 }
    have hwf : op.Wf x.numLocalNics x.numRemoteNics x.view.error :=
      ⟨hnic, nofun, fun _ => rfl, nofun, nofun, fun _ => rfl, fun _ => rfl⟩
    have hstanding := @submit_standing _ _ x.view kind h.paired hfalse _ (h.standing kind) op rfl
      rfl hwf
    have hwalked := advance_walked kind x.view (x.side kind).next
      { x.side kind with
        next := (x.side kind).next + 1
        ops := (x.side kind).ops ++ [op] }
    have hextends : Extends (x.side kind).io
        ((x.side kind).submit (advanceOp kind x.view) op).io := hwalked.extends_
    have hsilent : x.error = true →
        ((x.side kind).submit (advanceOp kind x.view) op).io.issued = (x.side kind).io.issued :=
      hwalked.silent
    refine ⟨withSide_inv h hstanding ?_ hsilent, withSide_later hsilent, ?_⟩
    · rw [posts_of_extends hextends, List.length_append]
    · refine withSide_stepped ?_ (fun _ _ => rfl)
      rw [List.diff_nil]
      exact hextends

-- ── The handshake ────────────────────────────────────────────────────────────

/-- The number of NICs of the peer has been read: the queue pairs are made. -/
theorem onReadHandshakeNumNics_spec (h : Inv x) (herror : x.error = false)
    (hstate : x.state = .WAITING_FOR_HANDSHAKE_NUM_NICS) (numNics : Nat)
    (qpNums : Nat → Nat → UInt32) :
    TaskSpec x (x.onReadHandshakeNumNics numNics qpNums) (fun _ => []) := by
  have hpaired : Paired x.numLocalNics numNics
      (x.onReadHandshakeNumNics numNics qpNums).queuePairs := by
    intro l hl r hr
    rw [queuePairAt, onReadHandshakeNumNics, List.getElem?_map, List.getElem?_range hl]
    show ((List.range numNics).map _)[r]? ≠ none
    rw [List.getElem?_map, List.getElem?_range hr]
    exact nofun
  refine ⟨⟨⟨h.gpus, h.live, fun _ => hpaired, fun hne => absurd (h.live herror) hne, nofun,
    fun kind => ?_, h.counted, h.unenrolled, h.inRange⟩, h.settled⟩,
    ⟨id, fun _ _ => rfl⟩, stepped_of_sides (fun _ => rfl) (fun _ => rfl)⟩
  refine (h.standing kind).mono ?_ id
  rw [h.unmet hstate]
  exact Nat.zero_le _

/-- Renaming the queue pairs leaves none out. -/
theorem paired_mapIdx {numLocalNics numRemoteNics : Nat} {queuePairs : List (List QueuePair)}
    (h : Paired numLocalNics numRemoteNics queuePairs) (f : Nat → Nat → QueuePair → QueuePair) :
    Paired numLocalNics numRemoteNics
      (queuePairs.mapIdx (fun l (row : List QueuePair) => row.mapIdx (f l))) := by
  intro l hl r hr
  have hpair := h l hl r hr
  rw [queuePairAt] at hpair ⊢
  rw [List.getElem?_mapIdx]
  cases hrow : queuePairs[l]? with
  | none => rw [hrow] at hpair; exact hpair
  | some row =>
      rw [hrow] at hpair
      show (row.mapIdx (f l))[r]? ≠ none
      rw [List.getElem?_mapIdx]
      cases hqp : row[r]? with
      | none => exact absurd hqp hpair
      | some qp => exact nofun

/-- The addresses of the peer have been read: the channel is established. -/
theorem onReadHandshakeSetupInfo_spec (h : Inv x) (herror : x.error = false)
    (localSizes : Nat → Nat) (remoteSizes : Nat → Nat → Nat) :
    TaskSpec x (x.onReadHandshakeSetupInfo localSizes remoteSizes) (fun _ => []) := by
  have hpairs := h.pairs (h.live herror)
  rw [onReadHandshakeSetupInfo, accessAll_eq hpairs]
  generalize hready : ({ x with queuePairs := _, state := ChannelState.ESTABLISHED } : ChannelImpl)
    = ready
  have hcore : Core ready := by
    subst hready
    exact ⟨h.gpus, h.live, fun _ => paired_mapIdx hpairs _, fun hne => absurd (h.live herror) hne,
      nofun, h.standing, h.counted, h.unenrolled, h.inRange⟩
  have hreadyError : ready.error = false := by
    subst hready
    exact herror
  have hstart : Stepped x ready (fun _ => []) := by
    subst hready
    exact stepped_of_sides (fun _ => rfl) (fun _ => rfl)
  have hwalked := advanceAll_core (advanceAll_core hcore .WC_SEND) .WC_RECV
  have hafter : ((ready.advanceAll .WC_SEND).advanceAll .WC_RECV).error = false := hreadyError
  refine ⟨⟨hwalked, ?_⟩, ⟨fun hset => ?_, fun hset => ?_⟩,
    hstart.trans ((advanceAll_stepped ready .WC_SEND).trans (advanceAll_stepped _ .WC_RECV))⟩
  · rw [Settled, if_neg (fun hcond => Bool.false_ne_true (hafter.symm.trans hcond.1))]
    exact hwalked.live hafter
  · exact absurd (herror.symm.trans hset) Bool.false_ne_true
  · exact absurd (herror.symm.trans hset) Bool.false_ne_true

end Tasks

end ChannelImpl

-- ── The callbacks ────────────────────────────────────────────────────────────

namespace ChannelImpl

section Callbacks

variable {x : ChannelImpl} {kind : WcOpcode}

/-- A call that is no post adds none. -/
theorem posts_of_not_isPost {c : Call} (h : c.isPost = false) : posts [c] = [] :=
  List.filter_cons_of_neg (by rw [h]; exact nofun)

/-- The posts of the outstanding calls, once one call has reported. -/
theorem posts_erase (calls : List Call) (c : Call) :
    posts (calls.erase c) = (posts calls).diff (posts [c]) := by
  rw [posts, ← List.erase_filter]
  cases hpost : c.isPost with
  | true =>
      have hsingle : posts [c] = [c] := List.filter_cons_of_pos hpost
      rw [hsingle, List.diff_cons, List.diff_nil]
      rfl
  | false =>
      rw [posts_of_not_isPost hpost, List.diff_nil]
      refine List.erase_of_not_mem (fun hmem => ?_)
      rw [(List.mem_filter.mp hmem).2] at hpost
      exact nomatch hpost

/-- What a queue that was walked after the report of `c` has issued, and what is outstanding. -/
theorem report_extends (kind : WcOpcode) (s : Side Op Call) (v : View) (c : Call) (n : Nat)
    (f : Op → Op) :
    ∃ new, (s.report (advanceOp kind v) c n f).io.issued = s.io.issued ++ new
      ∧ posts (s.report (advanceOp kind v) c n f).io.calls
        = (posts s.io.calls).diff (posts [c]) ++ posts new := by
  have hwalked := advance_walked kind v n
    { s with io := s.io.reported c, ops := modifyOperation n f s.ops }
  obtain ⟨new, hissued, hcalls⟩ := hwalked.extends_
  refine ⟨new, hissued, ?_⟩
  rw [← posts_erase]
  exact hcalls

/-- A report to a channel in error issues nothing. -/
theorem report_silent (kind : WcOpcode) (s : Side Op Call) {v : View} (herror : v.error = true)
    (c : Call) (n : Nat) (f : Op → Op) : (s.report (advanceOp kind v) c n f).io.issued = s.io.issued :=
  (advance_walked kind v n
    { s with io := s.io.reported c, ops := modifyOperation n f s.ops }).silent herror

/-- A call that is no request has reported. -/
theorem withSide_spec (h : Inv x) {s' : Side Op Call} {c : Call} (hpost : c.isPost = false)
    (hs : Standing x.numLocalNics x.numRemoteNics x.error s')
    (hextends : ∃ new, s'.io.issued = (x.side kind).io.issued ++ new
      ∧ posts s'.io.calls = (posts (x.side kind).io.calls).diff (posts [c]) ++ posts new)
    (hsilent : x.error = true → s'.io.issued = (x.side kind).io.issued) :
    TaskSpec x (x.withSide kind s') (fun kind' => if kind = kind' then posts [c] else []) := by
  have hself : (if kind = kind then posts [c] else []) = posts [c] := if_pos rfl
  refine ⟨withSide_inv h hs ?_ hsilent, withSide_later hsilent,
    withSide_stepped (by rw [hself]; exact hextends) (fun kind' hne => if_neg (Ne.symm hne))⟩
  obtain ⟨new, hissued, hcalls⟩ := hextends
  rw [posts_of_not_isPost hpost, List.diff_nil] at hcalls
  rw [hcalls, newPosts, hissued, List.drop_left, List.length_append]
  rfl

/-- A chunk is done: the counter goes down after the queue was walked, and the cleanup is
    attempted. -/
theorem post_spec (h : Inv x) {n i l r : Nat} {info : Info}
    (hcall : .post n i l r info ∈ (x.side kind).io.calls) (nicIdx : Nat) :
    TaskSpec x (x.onReport kind (.post n i l r info) nicIdx)
      (fun kind' => if kind = kind' then posts [.post n i l r info] else []) := by
  let c : Call := .post n i l r info
  let f : Op → Op := fun op => { op with numChunks := op.numChunks - 1 }
  let s' := (x.side kind).report (advanceOp kind x.view) c n f
  have hs : Standing x.numLocalNics x.numRemoteNics x.error s' :=
    report_standing (v := x.view) h.paired (h.standing kind) (post_reports hcall)
  have hextends : ∃ new, s'.io.issued = (x.side kind).io.issued ++ new
      ∧ posts s'.io.calls = (posts (x.side kind).io.calls).diff (posts [c]) ++ posts new :=
    report_extends kind (x.side kind) x.view c n f
  have hmem : c ∈ posts (x.side kind).io.calls := List.mem_filter.mpr ⟨hcall, rfl⟩
  have hpositive : 0 < x.numInFlight.get kind := by
    rw [h.counted kind]
    exact Int.natCast_pos.mpr (List.length_pos_of_mem hmem)
  -- with this request in flight the cleanup has not run
  have hcleanups : x.cleanups = 0 := by
    have hsettled := h.settled
    rw [Settled, if_neg] at hsettled
    · exact hsettled
    · intro hcond
      cases kind with
      | WC_SEND => exact absurd hcond.2.1 (Int.ne_of_gt hpositive)
      | WC_RECV => exact absurd hcond.2.2 (Int.ne_of_gt hpositive)
  let counted := x.numInFlight.set kind
    (x.numInFlight.get kind + (newPosts (x.side kind) s').length)
  let after : ChannelImpl := { x with
    sides := x.sides.set kind s'
    numInFlight := counted.set kind (counted.get kind - 1) }
  have hafter : x.onReport kind c nicIdx = after.tryCleanup := rfl
  have hcore : Core after := by
    have hnum : counted.set kind (counted.get kind - 1) = x.numInFlight.set kind
        (x.numInFlight.get kind + (newPosts (x.side kind) s').length - 1) := by
      cases kind <;> rfl
    show Core { x with
      sides := x.sides.set kind s'
      numInFlight := counted.set kind (counted.get kind - 1) }
    rw [hnum]
    refine core_set h.toCore hs ?_
    obtain ⟨new, hissued, hcalls⟩ := hextends
    have hone : (posts (x.side kind).io.calls).diff (posts [c])
        = (posts (x.side kind).io.calls).erase c := by
      show (posts (x.side kind).io.calls).diff [c] = _
      rw [List.diff_cons, List.diff_nil]
    rw [hcalls, hone, newPosts, hissued, List.drop_left, List.length_append,
      List.length_erase_of_mem hmem, h.counted kind]
    have hpos := List.length_pos_of_mem hmem
    show _ + ((posts new).length : Int) - 1 = _
    omega
  obtain ⟨herror, -, -, hside⟩ := tryCleanup_frame after
  have hself : (if kind = kind then posts [c] else []) = posts [c] := if_pos rfl
  have hstepped : Stepped x (x.withSide kind s')
      (fun kind' => if kind = kind' then posts [c] else []) :=
    withSide_stepped (by rw [hself]; exact hextends) (fun kind' hne => if_neg (Ne.symm hne))
  have hlater : Later x (x.withSide kind s') :=
    withSide_later (fun hset => report_silent kind (x.side kind) (v := x.view) hset c n f)
  show TaskSpec x (x.onReport kind c nicIdx) (fun kind' => if kind = kind' then posts [c] else [])
  rw [hafter]
  refine ⟨tryCleanup_inv hcore hcleanups, ⟨fun hset => herror.trans hset, fun hset kind' => ?_⟩,
    fun kind' => ?_⟩
  · rw [hside kind']
    exact hlater.silent hset kind'
  · rw [hside kind']
    exact hstepped kind'

/-- The report of any call, as a task. -/
theorem onReport_spec (h : Inv x) {call : Call} (hcall : call ∈ (x.side kind).io.calls)
    {nicIdx : Nat} (hnic : ∀ n, call = .read n → x.error = false → nicIdx < x.numRemoteNics) :
    TaskSpec x (x.onReport kind call nicIdx)
      (fun kind' => if kind = kind' then posts [call] else []) := by
  cases call with
  | write n w =>
      obtain ⟨⟨bound, hbound, hsided⟩, hfound⟩ := h.standing kind
      have hforgot : Standing x.numLocalNics x.numRemoteNics x.error
          ((x.side kind).forget (.write n w)) :=
        ⟨⟨bound, hbound, sided_forget hsided rfl⟩, hfound⟩
      refine withSide_spec h rfl hforgot ⟨[], (List.append_nil _).symm, ?_⟩ (fun _ => rfl)
      rw [← posts_erase]
      exact (List.append_nil _).symm
  | read n =>
      exact withSide_spec h rfl
        (report_standing (v := x.view) h.paired (h.standing kind)
          (read_reports hcall (hnic n rfl)))
        (report_extends kind (x.side kind) x.view (.read n) n _)
        (fun hset => report_silent kind (v := x.view) (x.side kind) hset (.read n) n _)
  | waitForCudaEvent n =>
      exact withSide_spec h rfl
        (report_standing (v := x.view) h.paired (h.standing kind) (wait_reports hcall))
        (report_extends kind (x.side kind) x.view (.waitForCudaEvent n) n _)
        (fun hset => report_silent kind (v := x.view) (x.side kind) hset (.waitForCudaEvent n) n _)
  | post n i l r info => exact post_spec h hcall nicIdx
  | queuePair n found =>
      refine ⟨h, Later.refl x, stepped_of_sides (fun _ => rfl) (fun kind' => ?_)⟩
      show (if kind = kind' then posts [.queuePair n found] else []) = []
      split
      · rfl
      · rfl

/-- **Step.** -/
theorem step_spec (h : Inv x) (task : Task) (henabled : x.enabled task) :
    TaskSpec x (x.step task) task.done := by
  cases task with
  | transfer kind gpuIdx ptr length lkey =>
      cases kind with
      | WC_SEND => exact transferFromLoop_spec h .WC_SEND henabled ptr length lkey
      | WC_RECV => exact transferFromLoop_spec h .WC_RECV henabled ptr length lkey
  | close => exact setError_spec h true
  | wroteHandshake failed => exact setError_spec h failed
  | readHandshakeNumNics failed numNics qpNums =>
      obtain ⟨hinv, -, hkept, -⟩ := setError_inv h failed
      have hstate : (x.setError failed).state = .WAITING_FOR_HANDSHAKE_NUM_NICS :=
        hkept.state.trans henabled
      rw [step]
      split
      · exact setError_spec h failed
      · rename_i herror
        exact (onReadHandshakeNumNics_spec hinv (Bool.eq_false_iff.mpr herror) hstate numNics
          qpNums).after_setError h failed
  | readHandshakeSetupInfo failed localSizes remoteSizes =>
      obtain ⟨hinv, -, -, -⟩ := setError_inv h failed
      rw [step]
      split
      · exact setError_spec h failed
      · rename_i herror
        exact (onReadHandshakeSetupInfo_spec hinv (Bool.eq_false_iff.mpr herror) localSizes
          remoteSizes).after_setError h failed
  | report kind call failed nicIdx =>
      obtain ⟨hcall, hnic⟩ := henabled
      obtain ⟨hinv, -, hkept, hfailed⟩ := setError_inv h failed
      have hnic' : ∀ n, call = .read n → (x.setError failed).error = false →
          nicIdx < (x.setError failed).numRemoteNics := by
        intro n hread hlive
        rw [hkept.numRemoteNics]
        refine hnic n hread ?_
        cases hf : failed with
        | false => rfl
        | true => exact absurd ((hfailed hf).symm.trans hlive) (Bool.false_ne_true ·.symm)
      exact (onReport_spec hinv (hkept.calls kind call hcall) hnic').after_setError h failed

end Callbacks

/-- The maximum of a list is no less than its elements. -/
theorem le_foldl_max (l : List Nat) : ∀ (a b : Nat), b = a ∨ b ∈ l → b ≤ l.foldl Nat.max a := by
  induction l with
  | nil =>
      intro a b h
      rcases h with rfl | h
      · exact Nat.le_refl _
      · exact nomatch h
  | cons c rest ih =>
      intro a b h
      show b ≤ rest.foldl Nat.max (Nat.max a c)
      rcases h with rfl | h
      · exact Nat.le_trans (Nat.le_max_left b c) (ih _ _ (Or.inl rfl))
      · rcases List.mem_cons.mp h with rfl | h
        · exact Nat.le_trans (Nat.le_max_right a b) (ih _ _ (Or.inl rfl))
        · exact ih _ b (Or.inr h)

/-- A new channel. -/
theorem inv_init (gpuToNic : List Nat) : Inv (init gpuToNic) := by
  refine ⟨⟨fun l hl => Nat.lt_succ_of_le (le_foldl_max _ _ _ (Or.inr hl)), fun _ => rfl, ?_,
    fun _ => rfl, fun _ => rfl, fun kind => ?_, fun kind => ?_, rfl, rfl⟩, rfl⟩
  · intro _ l _ r hr
    exact absurd hr (Nat.not_lt_zero r)
  · have hside : (init gpuToNic).side kind = {} := by cases kind <;> rfl
    rw [hside]
    refine ⟨⟨0, fun _ => rfl, ⟨trivial, Nat.le_refl _, nofun, nofun, nofun, List.nodup_nil, ?_⟩,
      nofun⟩, nofun⟩
    intro n
    exact ⟨fun hn => (nomatch hn), fun hn => absurd hn.1 (Nat.not_lt_zero n)⟩
  · cases kind <;> rfl

/-- Every channel that can be reached satisfies the invariant. -/
theorem inv_of_reachable {x : ChannelImpl} (h : Reachable x) : Inv x := by
  induction h with
  | init gpuToNic => exact inv_init gpuToNic
  | step _ task henabled ih => exact (step_spec ih task henabled).inv

end ChannelImpl

-- ── The channel and its NICs ─────────────────────────────────────────────────

/-- A request whose callback has not run: where it was posted, and the number of its callback
    there. -/
structure Posted where
  nicIdx : Nat
  cb : Nat
  kind : WcOpcode
  call : Call
deriving DecidableEq, Repr

/-- One channel, and the NICs of its context, which it shares. -/
structure System where
  channel : ChannelImpl
  nics : Nat → IbvNic
  callbacks : List Posted := []

namespace System

open ChannelImpl (newPosts)

/-- What the channel posts reaches the NICs as it is posted. -/
def postOn (kind : WcOpcode) : List Call → System → System
  | [], s => s
  | .post n chunkIdx localNicIdx remoteNicIdx info :: rest, s =>
      let nic := s.nics localNicIdx
      postOn kind rest
        { s with
          nics := Function.update s.nics localNicIdx (nic.call kind info)
          callbacks := s.callbacks ++
            [{ nicIdx := localNicIdx, cb := nic.calls, kind
               call := .post n chunkIdx localNicIdx remoteNicIdx info }] }
  | _ :: rest, s => postOn kind rest s

/-- Where sends and recvs are advanced by one task, the sends come first. -/
def perform (task : ChannelImpl.Task) (s : System) : System :=
  let channel := s.channel.step task
  ({ s with channel }.postOn .WC_SEND
    (newPosts (s.channel.side .WC_SEND) (channel.side .WC_SEND))).postOn .WC_RECV
    (newPosts (s.channel.side .WC_RECV) (channel.side .WC_RECV))

/-- A step of the system: a task of the channel, a callback from a NIC, or a step of a NIC. -/
inductive Step where
  | task (task : ChannelImpl.Task)
  | callback (posted : Posted) (failed : Bool)
  | nic (nicIdx : Nat) (step : IbvNic.Step)

/-- The queue pairs of the channel that are on a NIC. -/
def Own (s : System) (nicIdx : Nat) (qpNum : UInt32) : Prop :=
  ∃ r qp, queuePairAt s.channel.queuePairs nicIdx r = some qp ∧ qp.qpNum = qpNum

/-- A callback runs once its NIC has invoked it, which defers it to the loop; the other channels
    have other queue pairs. -/
def enabled (s : System) : Step → Prop
  | .task task => s.channel.enabled task ∧ ∀ kind, task.done kind = []
  | .callback posted failed => posted ∈ s.callbacks
      ∧ ∃ wrId, (wrId, posted.cb, failed) ∈ (s.nics posted.nicIdx).invoked
  | .nic nicIdx step => (s.nics nicIdx).enabled step ∧ match step with
      | .postSend info | .postRecv info => ¬ s.Own nicIdx info.qpNum
      | .poll batch => ∀ wc ∈ batch, wc.posts = []

/-- A step of the channel together with the NICs that it posts to. -/
def step (s : System) : Step → Option System
  | .task task => some (s.perform task)
  | .callback posted failed =>
      some ({ s with callbacks := s.callbacks.erase posted }.perform
        (.report posted.kind posted.call failed 0))
  | .nic nicIdx step => ((s.nics nicIdx).step step).map (fun nic =>
      { s with nics := Function.update s.nics nicIdx nic })

/-- The states between two steps.  The NICs may have been used for any time. -/
inductive Reachable : System → Prop where
  | init (gpuToNic : List Nat) (nics : Nat → IbvNic) (hnics : ∀ i, (nics i).Reachable) :
      Reachable { channel := ChannelImpl.init gpuToNic, nics }
  | step {s s' : System} (h : Reachable s) (st : Step) (henabled : s.enabled st)
      (hstep : s.step st = some s') : Reachable s'

/-- The runs from a state on. -/
inductive Run (s : System) : System → Prop where
  | refl : Run s s
  | step {s' s'' : System} (h : Run s s') (st : Step) (henabled : s'.enabled st)
      (hstep : s'.step st = some s'') : Run s s''

-- ── The callbacks that have not run ──────────────────────────────────────────

/-- The requests of a kind whose callback has not run. -/
def pending (s : System) (kind : WcOpcode) : List Call :=
  (s.callbacks.filter (fun p => p.kind == kind)).map Posted.call

/-- Posting on the NICs leaves the channel alone. -/
theorem postOn_channel (kind : WcOpcode) (calls : List Call) :
    ∀ s : System, (s.postOn kind calls).channel = s.channel := by
  induction calls with
  | nil => intro s; rfl
  | cons c rest ih =>
      intro s
      cases c with
      | post => exact ih _
      | write | read | waitForCudaEvent | queuePair => exact ih s

/-- What is posted is pending until its callback has run. -/
theorem postOn_pending (kind kind' : WcOpcode) (calls : List Call)
    (hposts : ∀ c ∈ calls, c.isPost = true) :
    ∀ s : System, (s.postOn kind calls).pending kind'
      = s.pending kind' ++ if kind' = kind then calls else [] := by
  induction calls with
  | nil =>
      intro s
      rw [ite_self, List.append_nil]
      rfl
  | cons c rest ih =>
      intro s
      have hrest := ih (fun c' hc' => hposts c' (List.mem_cons_of_mem _ hc'))
      cases c with
      | post n i l r info =>
          rw [postOn, hrest]
          simp only [pending, List.filter_append, List.map_append]
          by_cases hkind : kind' = kind
          · subst hkind
            simp
          · have hne : (kind == kind') = false := beq_false_of_ne (Ne.symm hkind)
            simp [hkind, hne]
      | write | read | waitForCudaEvent | queuePair =>
          exact absurd (hposts _ (List.mem_cons_self ..)) Bool.false_ne_true

/-- New posts are posts. -/
theorem newPosts_isPost {side side' : Side Op Call} : ∀ c ∈ newPosts side side', c.isPost = true :=
  fun _ hc => (List.mem_filter.mp hc).2

/-- Every task adds what it posts to the requests whose callback has not run. -/
theorem perform_pending (s : System) (task : ChannelImpl.Task) (kind : WcOpcode) :
    (s.perform task).pending kind = s.pending kind
      ++ newPosts (s.channel.side kind) ((s.channel.step task).side kind) := by
  rw [perform, postOn_pending _ _ _ newPosts_isPost, postOn_pending _ _ _ newPosts_isPost,
    List.append_assoc]
  cases kind with
  | WC_SEND => exact congrArg _ (List.append_nil _)
  | WC_RECV => rfl

/-- What a task does to the channel. -/
theorem perform_channel (s : System) (task : ChannelImpl.Task) :
    (s.perform task).channel = s.channel.step task := by
  rw [perform, postOn_channel, postOn_channel]

/-- The channel is a channel on its own, and its requests that are outstanding are those whose
    callback has not run. -/
structure Inv (s : System) : Prop where
  channel : s.channel.Reachable
  pending : ∀ kind, (s.pending kind).Perm (posts (s.channel.side kind).io.calls)

/-- A callback to come belongs to a call that is outstanding. -/
theorem Inv.outstanding {s : System} (h : Inv s) {p : Posted} (hp : p ∈ s.callbacks) :
    p.call ∈ posts (s.channel.side p.kind).io.calls := by
  refine (h.pending p.kind).mem_iff.mp (List.mem_map.mpr ⟨p, ?_, rfl⟩)
  exact List.mem_filter.mpr ⟨hp, beq_self_eq_true _⟩

/-- What a task of the channel does, the requests `done` being taken out beforehand. -/
theorem inv_perform {s s₀ : System} (h : Inv s₀) (hchannel : s.channel = s₀.channel)
    {task : ChannelImpl.Task} (henabled : s.channel.enabled task)
    (hpending : ∀ kind, (s.pending kind).Perm
      ((posts (s.channel.side kind).io.calls).diff (task.done kind))) :
    Inv (s.perform task) := by
  have hreach := h.channel
  rw [← hchannel] at hreach
  refine ⟨?_, fun kind => ?_⟩
  · rw [perform_channel]
    exact hreach.step task henabled
  · obtain ⟨new, hissued, hposts⟩ :=
      (ChannelImpl.step_spec (ChannelImpl.inv_of_reachable hreach) task henabled).stepped kind
    have hnew : newPosts (s.channel.side kind) ((s.channel.step task).side kind) = posts new := by
      rw [newPosts, hissued, List.drop_left]
      rfl
    rw [perform_pending, perform_channel, hposts, hnew]
    exact (hpending kind).append_right _

/-- Taking a callback out takes its request out. -/
theorem pending_erase {s : System} {p : Posted} (hp : p ∈ s.callbacks) (kind : WcOpcode) :
    (s.pending kind).Perm ((if p.kind = kind then [p.call] else [])
      ++ { s with callbacks := s.callbacks.erase p }.pending kind) := by
  have hperm := List.perm_cons_erase hp
  have hfiltered := (hperm.filter (fun q => q.kind == kind)).map Posted.call
  rw [List.filter_cons] at hfiltered
  by_cases hkind : p.kind = kind
  · rw [if_pos (beq_iff_eq.mpr hkind)] at hfiltered
    rw [if_pos hkind]
    exact hfiltered
  · rw [if_neg (fun heq => hkind (beq_iff_eq.mp heq))] at hfiltered
    rw [if_neg hkind]
    exact hfiltered

/-- A callback can run whenever it is due, and keeps the invariant. -/
theorem inv_callback {s : System} (h : Inv s) {p : Posted} (hp : p ∈ s.callbacks)
    (failed : Bool) :
    (s.channel.enabled (.report p.kind p.call failed 0))
      ∧ Inv ({ s with callbacks := s.callbacks.erase p }.perform
        (.report p.kind p.call failed 0)) := by
  have hmem := h.outstanding hp
  obtain ⟨hcall, hpost⟩ := List.mem_filter.mp hmem
  have henabled : s.channel.enabled (.report p.kind p.call failed 0) := by
    refine ⟨hcall, fun n hread => ?_⟩
    rw [hread] at hpost
    exact nomatch hpost
  have hsingle : posts [p.call] = [p.call] := List.filter_cons_of_pos hpost
  refine ⟨henabled, @inv_perform { s with callbacks := s.callbacks.erase p } s h rfl _ henabled
    (fun kind => ?_)⟩
  have hperm := (pending_erase hp kind).symm.trans (h.pending kind)
  show List.Perm _ ((posts (s.channel.side kind).io.calls).diff
    (if p.kind = kind then posts [p.call] else []))
  by_cases hkind : p.kind = kind
  · rw [if_pos hkind] at hperm
    rw [if_pos hkind, hsingle, List.diff_cons, List.diff_nil]
    have herase := hperm.erase p.call
    rw [List.singleton_append, List.erase_cons_head] at herase
    exact herase
  · rw [if_neg hkind] at hperm
    rw [if_neg hkind, List.diff_nil]
    exact hperm

/-- A step keeps the invariant and undoes nothing. -/
theorem inv_step {s s' : System} {st : Step} (h : Inv s) (henabled : s.enabled st)
    (hstep : s.step st = some s') : Inv s' ∧ s.channel.Later s'.channel := by
  have hchannel := ChannelImpl.inv_of_reachable h.channel
  cases st with
  | task task =>
      cases hstep
      obtain ⟨htask, hdone⟩ := henabled
      refine ⟨inv_perform h rfl htask (fun kind => ?_), ?_⟩
      · rw [hdone kind, List.diff_nil]
        exact h.pending kind
      · rw [perform_channel]
        exact (ChannelImpl.step_spec hchannel task htask).later
  | callback p failed =>
      cases hstep
      obtain ⟨htask, hinv⟩ := inv_callback h henabled.1 failed
      refine ⟨hinv, ?_⟩
      rw [perform_channel]
      exact (ChannelImpl.step_spec hchannel _ htask).later
  | nic nicIdx step =>
      obtain ⟨nic, -, rfl⟩ := Option.map_eq_some_iff.mp hstep
      exact ⟨⟨h.channel, h.pending⟩, ChannelImpl.Later.refl _⟩

/-- Every system that can be reached satisfies the invariant. -/
theorem inv_of_reachable {s : System} (h : Reachable s) : Inv s := by
  induction h with
  | init gpuToNic nics hnics =>
      refine ⟨.init gpuToNic, fun kind => ?_⟩
      cases kind <;> exact .nil
  | step _ st henabled hstep ih => exact (inv_step ih henabled hstep).1

/-- A run keeps the invariant and undoes nothing. -/
theorem later_of_run {s s' : System} (h : Inv s) (hrun : Run s s') :
    Inv s' ∧ s.channel.Later s'.channel := by
  induction hrun with
  | refl => exact ⟨h, ChannelImpl.Later.refl _⟩
  | step _ st henabled hstep ih =>
      obtain ⟨hinv, hlater⟩ := inv_step ih.1 henabled hstep
      exact ⟨hinv, ih.2.trans hlater⟩

-- ── Teardown ─────────────────────────────────────────────────────────────────

/-- What holds of a channel and its NICs between any two steps: each counter is the number of
    requests whose callback has not run; the cleanup has run once if there is an error and no such
    request, and not at all otherwise, and it has destroyed the queue pairs and unenrolled the
    channel; the queue pairs were only accessed where there are some; and from an error on the
    channel posts nothing. -/
structure TornDown (s : System) : Prop where
  counted : ∀ kind, s.channel.numInFlight.get kind = s.callbacks.countP (fun p => p.kind == kind)
  cleanups : s.channel.cleanups = if s.channel.error = true ∧ s.callbacks = [] then 1 else 0
  destroyed : s.channel.cleanups ≠ 0 → s.channel.queuePairs = []
  unenrolled : s.channel.unenrolled = s.channel.cleanups
  inRange : s.channel.outOfRange = false
    ∧ ∀ kind n found, .queuePair n found ∈ (s.channel.side kind).io.issued → found = true
  silent : s.channel.error = true → ∀ s', Run s s' →
    ∀ kind, posts (s'.channel.side kind).io.issued = posts (s.channel.side kind).io.issued

/-- The counter of a side is the number of its callbacks to come. -/
theorem counted_of_inv {s : System} (h : Inv s) (kind : WcOpcode) :
    s.channel.numInFlight.get kind = s.callbacks.countP (fun p => p.kind == kind) := by
  have hchannel := ChannelImpl.inv_of_reachable h.channel
  rw [hchannel.counted kind, ← (h.pending kind).length_eq, pending, List.length_map,
    List.countP_eq_length_filter]

/-- A channel in error is cleaned up once, when the NICs hold nothing of it any more. -/
theorem channel_teardown {s : System} (h : Reachable s) : TornDown s := by
  have hinv := inv_of_reachable h
  have hchannel := ChannelImpl.inv_of_reachable hinv.channel
  have hcounted := counted_of_inv hinv
  have hquiet : (s.channel.numInFlight.send = 0 ∧ s.channel.numInFlight.recv = 0)
      ↔ s.callbacks = [] := by
    have hsend := hcounted .WC_SEND
    have hrecv := hcounted .WC_RECV
    constructor
    · rintro ⟨hs, hr⟩
      refine List.eq_nil_iff_forall_not_mem.mpr (fun p hp => ?_)
      have hpositive : ∀ kind, p.kind = kind →
          0 < s.callbacks.countP (fun q => q.kind == kind) :=
        fun kind hkind => List.countP_pos_iff.mpr ⟨p, hp, beq_iff_eq.mpr hkind⟩
      rw [show s.channel.numInFlight.get .WC_SEND = s.channel.numInFlight.send from rfl, hs]
        at hsend
      rw [show s.channel.numInFlight.get .WC_RECV = s.channel.numInFlight.recv from rfl, hr]
        at hrecv
      cases hkind : p.kind with
      | WC_SEND => have := hpositive .WC_SEND hkind; omega
      | WC_RECV => have := hpositive .WC_RECV hkind; omega
    · intro hnone
      rw [hnone] at hsend hrecv
      exact ⟨hsend, hrecv⟩
  refine ⟨hcounted, ?_, hchannel.cleared, hchannel.unenrolled,
    ⟨hchannel.inRange, fun kind => (hchannel.standing kind).found⟩, fun herror s' hrun kind => ?_⟩
  · rw [hchannel.settled]
    simp only [hquiet]
  · rw [(later_of_run hinv hrun).2.silent herror kind]

end System

-- ── A channel that is closed while a send waits for its NIC ──────────────────

namespace System

open ChannelImpl (newPosts)

/-- Some chunk of another channel. -/
def otherInfo : Info := ⟨8, 0, 1, 0⟩

/-- The other channels have posted this many sends on a NIC. -/
def busyNic (n : Nat) : IbvNic where
  slots := ⟨{ available := kNumSends - n }, { available := kNumRecvs }⟩
  requestsInFlight := (List.range' 0 n).map (fun i => (i, .WC_SEND, i))
  nextRequestId := n
  calls := n
  called := ⟨(List.range' 0 n).map (fun i => ⟨otherInfo, i⟩), []⟩
  handed := ⟨(List.range' 0 n).map (fun i => (⟨i, 8, 0, 1, 0⟩, i)), []⟩

/-- A NIC on which another channel has requests, as many as it takes. -/
theorem reachable_busyNic (n : Nat) (hn : n ≤ kNumSends) : (busyNic n).Reachable := by
  induction n with
  | zero => exact .init
  | succ n ih =>
      have h := (ih (Nat.le_of_succ_le hn)).step (.postSend otherInfo) trivial rfl
      have hslot : 0 < ({ busyNic n with
          calls := (busyNic n).calls + 1
          called := (busyNic n).called.push .WC_SEND ⟨otherInfo, (busyNic n).calls⟩ } : IbvNic).available
            .WC_SEND :=
        Nat.sub_pos_of_lt hn
      have hunused : (busyNic n).requestsInFlight.any (fun entry => entry.1 == n) = false := by
        refine List.any_eq_false.mpr (fun entry hmem heq => ?_)
        obtain ⟨i, hi, rfl⟩ := List.mem_map.mp hmem
        have hlt : i < 0 + n := (List.mem_range'_1.mp hi).2
        exact Nat.ne_of_lt (Nat.zero_add n ▸ hlt) (beq_iff_eq.mp heq)
      have hsame : busyNic (n + 1) = (busyNic n).postSend otherInfo := by
        rw [IbvNic.postSend, IbvNic.call, IbvNic.post, if_pos hslot]
        simp only [busyNic] at hunused ⊢
        simp only [hunused, List.range'_1_concat, List.map_append, Nat.zero_add]
        rfl
      rw [hsame]
      exact h

/-- A channel with one NIC, on queue pair 7. -/
def ready : ChannelImpl where
  gpuToNic := [0]
  numLocalNics := 1
  numRemoteNics := 1
  state := .ESTABLISHED
  queuePairs := [[⟨7, 1024⟩]]

/-- It has one send. -/
def sending (op : Op) (calls issued : List Call) (sends : Int) : ChannelImpl :=
  { ready with
    sides := ⟨{ next := 1, ops := [op], io := { calls, issued } }, {}⟩
    numInFlight := ⟨sends, 0⟩ }

/-- The chunk of that send. -/
def chunk : Call := .post 0 0 0 0 ⟨7, 0, 8, 0⟩

/-- The send has been told which NIC it is for. -/
def waiting : ChannelImpl :=
  sending
    { sequenceNumber := 0, state := .WAITING_FOR_CUDA_EVENT, doneReading := true, ptr := 0
      length := 8, lkey := 0, localNicIdx := 0, remoteNicIdx := some 0 }
    [.write 0 0, .waitForCudaEvent 0] [.write 0 0, .read 0, .waitForCudaEvent 0] 0

/-- Its chunk is posted. -/
def posting : ChannelImpl :=
  sending
    { sequenceNumber := 0, state := .OVER_IB, doneReading := true
      doneWaitingForCudaEvent := true, numChunks := 1, ptr := 0, length := 8, lkey := 0
      localNicIdx := 0, remoteNicIdx := some 0 }
    [.write 0 0, chunk] [.write 0 0, .read 0, .waitForCudaEvent 0, .queuePair 0 true, chunk] 1

/-- The channel is closed while its chunk is posted. -/
def closed : ChannelImpl := { posting with error := true }

/-- A channel that was closed while one request was in flight. -/
theorem reachable_closed (nics : Nat → IbvNic) (hnics : ∀ i, (nics i).Reachable) :
    Reachable
      { channel := closed
        nics := Function.update nics 0 ((nics 0).call .WC_SEND ⟨7, 0, 8, 0⟩)
        callbacks := [⟨0, (nics 0).calls, .WC_SEND, chunk⟩] } := by
  have hdone : ∀ (call : Call) (nicIdx : Nat), call.isPost = false → ∀ kind,
      ChannelImpl.Task.done (.report .WC_SEND call false nicIdx) kind = [] := by
    intro call nicIdx hpost kind
    have hnone : posts [call] = [] := List.filter_cons_of_neg (by rw [hpost]; exact nofun)
    show (if WcOpcode.WC_SEND = kind then posts [call] else []) = []
    rw [hnone, ite_self]
  have h₁ := (Reachable.init [0] nics hnics).step
    (.task (.readHandshakeNumNics false 1 (fun _ _ => 7))) ⟨rfl, fun _ => rfl⟩ rfl
  have h₂ : Reachable { channel := ready, nics } := h₁.step
    (.task (.readHandshakeSetupInfo false (fun _ => 1024) (fun _ _ => 1024)))
    ⟨rfl, fun _ => rfl⟩ rfl
  have h₃ : Reachable
      { channel := sending
          { sequenceNumber := 0, state := .READING, ptr := 0, length := 8, lkey := 0
            localNicIdx := 0 }
          [.write 0 0, .read 0] [.write 0 0, .read 0] 0
        nics } :=
    h₂.step (.task (.transfer .WC_SEND 0 0 8 0)) ⟨Nat.zero_lt_one, fun _ => rfl⟩ rfl
  have h₄ : Reachable { channel := waiting, nics } :=
    h₃.step (.task (.report .WC_SEND (.read 0) false 0))
      ⟨⟨List.mem_cons_of_mem _ (List.mem_cons_self ..), fun _ _ _ => Nat.zero_lt_one⟩,
        hdone _ _ rfl⟩ rfl
  have hpost : perform (.report .WC_SEND (.waitForCudaEvent 0) false 0) { channel := waiting, nics }
      = { channel := posting
          nics := Function.update nics 0 ((nics 0).call .WC_SEND ⟨7, 0, 8, 0⟩)
          callbacks := [⟨0, (nics 0).calls, .WC_SEND, chunk⟩] } := by
    have hchannel : waiting.step (.report .WC_SEND (.waitForCudaEvent 0) false 0) = posting := rfl
    have hsend : newPosts (waiting.side .WC_SEND) (posting.side .WC_SEND) = [chunk] := rfl
    have hrecv : newPosts (waiting.side .WC_RECV) (posting.side .WC_RECV) = [] := rfl
    simp only [perform, hchannel, hsend, hrecv]
    rfl
  have h₅ := h₄.step (.task (.report .WC_SEND (.waitForCudaEvent 0) false 0))
    ⟨⟨List.mem_cons_of_mem _ (List.mem_cons_self ..), fun _ _ _ => Nat.zero_lt_one⟩,
      hdone _ _ rfl⟩ (congrArg some hpost)
  exact h₅.step (.task .close) ⟨trivial, fun _ => rfl⟩ rfl

/-- The send is flushed, its callback runs, and the channel is cleaned up. -/
theorem channel_teardown_closed :
    ∃ s : System, s.channel.error = true ∧ s.channel.cleanups = 1 ∧ TornDown s := by
  have hclosed := reachable_closed (fun _ => {}) (fun _ => .init)
  have hout : ((({} : IbvNic).call .WC_SEND ⟨7, 0, 8, 0⟩).Outstanding 0) :=
    ⟨⟨.WC_SEND, _, 0, List.mem_singleton_self _, rfl⟩, nofun⟩
  have hflushed := hclosed.step (.nic 0 (.poll [⟨0, true, []⟩]))
    ⟨⟨List.nodup_singleton _, fun wc hmem => by
        rw [List.mem_singleton.mp hmem]
        exact hout⟩,
      fun wc hmem => by rw [List.mem_singleton.mp hmem]⟩ rfl
  have hrun := hflushed.step (.callback ⟨0, 0, .WC_SEND, chunk⟩ true)
    ⟨List.mem_singleton_self _, 0, List.mem_singleton_self _⟩ rfl
  exact ⟨_, rfl, rfl, channel_teardown hrun⟩

/-- A chunk that waits for its NIC when the channel is closed is handed to the device later, once
    a request of another channel completes. -/
theorem waiting_chunk_handed :
    ¬ ∀ (s s' : System) (st : Step), Reachable s → s.channel.error = true → s.enabled st →
      s.step st = some s' → ∀ l r qp, queuePairAt s.channel.queuePairs l r = some qp →
      ∀ kind, ((s'.nics l).handed.get kind).countP (fun entry => entry.1.qpNum == qp.qpNum)
        = ((s.nics l).handed.get kind).countP (fun entry => entry.1.qpNum == qp.qpNum) := by
  intro hall
  let nics : Nat → IbvNic := fun _ => busyNic kNumSends
  have hclosed := reachable_closed nics
    (fun _ => reachable_busyNic kNumSends (Nat.le_refl _))
  have hout : ((nics 0).call .WC_SEND ⟨7, 0, 8, 0⟩).Outstanding 0 :=
    ⟨⟨.WC_SEND, ⟨0, 8, 0, 1, 0⟩, 0,
      List.mem_map.mpr ⟨0, List.mem_range'_1.mpr ⟨Nat.le_refl _, Nat.zero_lt_succ 1023⟩, rfl⟩,
      rfl⟩, nofun⟩
  have hsame := hall _ _ (.nic 0 (.poll [⟨0, false, []⟩])) hclosed rfl
    ⟨⟨List.nodup_singleton _, fun wc hmem => by
        rw [List.mem_singleton.mp hmem]
        exact hout⟩,
      fun wc hmem => by rw [List.mem_singleton.mp hmem]⟩ rfl 0 0 ⟨7, 1024⟩ rfl .WC_SEND
  have hhanded : ∀ (before after : List (WorkRequest × Nat)) (entry : WorkRequest × Nat),
      after = before ++ [entry] → entry.1.qpNum = 7 →
      after.countP (fun entry => entry.1.qpNum == 7)
        ≠ before.countP (fun entry => entry.1.qpNum == 7) := by
    intro before after entry hafter hqp
    rw [hafter, List.countP_append, List.countP_singleton, hqp]
    exact Nat.succ_ne_self _
  exact hhanded _ _ (⟨1024, 7, 0, 8, 0⟩, 1024) rfl rfl hsame

end System

end TpCudaGdr
