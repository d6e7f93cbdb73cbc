import Mathlib.Data.List.Nodup
import Mathlib.Tactic.Common

/-! # The NIC of the cuda_gdr channel — slots, requests in flight, waiting queues

    A NIC hands at most `kNumSends` sends and `kNumRecvs` recvs to the device at a time and
    queues the rest.  A completion invokes the callback of its request, and the callback may
    post again before the slots of the batch are given back.  What a callback does to the NIC
    is a parameter of the completion: any list of posts.

    The lists `called`, `handed` and `invoked` are not in the source; they say what was asked
    of the NIC, what it gave to the device and which callbacks it invoked. -/

namespace TpCudaGdr

/-- The most requests of each kind that are handed to the device. -/
def kNumRecvs : Nat := 1024
def kNumSends : Nat := 1024

-- ── Sends and recvs ──────────────────────────────────────────────────────────

/-- The opcodes of the requests in flight. -/
inductive WcOpcode where
  | WC_SEND
  | WC_RECV
deriving DecidableEq, Repr

/-- One value for the sends and one for the recvs. -/
structure PerKind (α : Type) where
  send : α
  recv : α
deriving DecidableEq, Repr

namespace PerKind

variable {α : Type}

/-- The part of a kind. -/
def get (p : PerKind α) : WcOpcode → α
  | .WC_SEND => p.send
  | .WC_RECV => p.recv

/-- Replaces the part of a kind. -/
def set (p : PerKind α) (op : WcOpcode) (a : α) : PerKind α :=
  match op with
  | .WC_SEND => { p with send := a }
  | .WC_RECV => { p with recv := a }

/-- The part that was replaced. -/
@[simp] theorem get_set_self (p : PerKind α) (op : WcOpcode) (a : α) :
    (p.set op a).get op = a := by
  cases op <;> rfl

/-- The other part is as it was. -/
@[simp] theorem get_set_of_ne (p : PerKind α) {op op' : WcOpcode} (a : α) (h : op' ≠ op) :
    (p.set op a).get op' = p.get op' := by
  cases op <;> cases op' <;> first | rfl | exact absurd rfl h

/-- Two pairs are equal when both parts are. -/
theorem ext_get {p q : PerKind α} (h : ∀ op, p.get op = q.get op) : p = q := by
  obtain ⟨hsend, hrecv⟩ := And.intro (h .WC_SEND) (h .WC_RECV)
  cases p
  cases q
  cases hsend
  cases hrecv
  rfl

/-- Append one value to the list of a kind. -/
def push (p : PerKind (List α)) (op : WcOpcode) (a : α) : PerKind (List α) :=
  p.set op (p.get op ++ [a])

/-- The list that was pushed to is longer by one. -/
theorem get_push_self (p : PerKind (List α)) (op : WcOpcode) (a : α) :
    (p.push op a).get op = p.get op ++ [a] :=
  get_set_self ..

/-- The other list is as it was. -/
theorem get_push_of_ne (p : PerKind (List α)) {op op' : WcOpcode} (a : α) (h : op' ≠ op) :
    (p.push op a).get op' = p.get op' :=
  get_set_of_ne _ _ h

/-- What is in a list after something was pushed. -/
theorem mem_push {p : PerKind (List α)} {op op' : WcOpcode} {a b : α} :
    b ∈ (p.push op a).get op' ↔ b ∈ p.get op' ∨ (op' = op ∧ b = a) := by
  by_cases hop : op' = op
  · subst hop
    rw [get_push_self, List.mem_append, List.mem_singleton]
    simp
  · rw [get_push_of_ne _ _ hop]
    simp [hop]

end PerKind

/-- The slots of a kind. -/
def WcOpcode.capacity : WcOpcode → Nat
  | .WC_SEND => kNumSends
  | .WC_RECV => kNumRecvs

-- ── The NIC ──────────────────────────────────────────────────────────────────

/-- `SendInfo` and `RecvInfo`, and the queue pair they are for. -/
structure Info where
  qpNum : UInt32
  addr : Nat
  length : Nat
  lkey : UInt32
deriving DecidableEq, Repr

/-- A request that waits for a slot.  Callbacks are named by the number of their call. -/
structure Request where
  info : Info
  cb : Nat
deriving DecidableEq, Repr

/-- What the device is given.  The length of a scatter-gather element is 32 bits wide. -/
structure WorkRequest where
  wrId : Nat
  qpNum : UInt32
  addr : Nat
  length : UInt32
  lkey : UInt32
deriving DecidableEq, Repr

/-- The slots of a kind that are free, and the requests that wait for one. -/
structure Slots where
  available : Nat
  waiting : List Request := []
deriving DecidableEq, Repr

/-- A NIC, with its calls and what became of them. -/
structure IbvNic where
  slots : PerKind Slots := ⟨{ available := kNumSends }, { available := kNumRecvs }⟩
  requestsInFlight : List (Nat × WcOpcode × Nat) := []
  nextRequestId : Nat := 0
  calls : Nat := 0
  called : PerKind (List Request) := ⟨[], []⟩
  handed : PerKind (List (WorkRequest × Nat)) := ⟨[], []⟩
  invoked : List (Nat × Nat × Bool) := []
deriving DecidableEq, Repr

/-- A polled work completion, and what its callback posts. -/
structure Completion where
  wrId : Nat
  failed : Bool
  posts : List (WcOpcode × Info)
deriving DecidableEq, Repr

namespace IbvNic

/-- The free slots of a kind, and the requests that wait for one. -/
def available (nic : IbvNic) (op : WcOpcode) : Nat := (nic.slots.get op).available
def waiting (nic : IbvNic) (op : WcOpcode) : List Request := (nic.slots.get op).waiting

/-- `postSend` and `postRecv`, past the count of calls. -/
def post (op : WcOpcode) (r : Request) (nic : IbvNic) : IbvNic :=
  if 0 < nic.available op then
    let wr : WorkRequest :=
      { wrId := nic.nextRequestId, qpNum := r.info.qpNum, addr := r.info.addr
        length := UInt32.ofNat r.info.length, lkey := r.info.lkey }
    { nic with
      nextRequestId := nic.nextRequestId + 1
      handed := nic.handed.push op (wr, r.cb)
      slots := nic.slots.set op
        { available := nic.available op - 1, waiting := nic.waiting op }
      requestsInFlight :=
        -- emplace leaves the entry of a key that is there as it is
        if nic.requestsInFlight.any (fun entry => entry.1 == wr.wrId) then nic.requestsInFlight
        else nic.requestsInFlight ++ [(wr.wrId, op, r.cb)] }
  else
    { nic with
      slots := nic.slots.set op
        { available := nic.available op, waiting := nic.waiting op ++ [r] } }

/-- A call with a callback of its own, which is posted or waits. -/
def call (op : WcOpcode) (info : Info) (nic : IbvNic) : IbvNic :=
  post op { info, cb := nic.calls }
    { nic with
      calls := nic.calls + 1
      called := nic.called.push op { info, cb := nic.calls } }

/-- The two calls of the source. -/
def postSend (info : Info) (nic : IbvNic) : IbvNic := call .WC_SEND info nic
def postRecv (info : Info) (nic : IbvNic) : IbvNic := call .WC_RECV info nic

/-- What a callback does. -/
def posts : List (WcOpcode × Info) → IbvNic → IbvNic
  | [], nic => nic
  | (.WC_SEND, info) :: rest, nic => posts rest (nic.postSend info)
  | (.WC_RECV, info) :: rest, nic => posts rest (nic.postRecv info)

/-- The loop over the work completions of a batch.  `none` stands for the failed assertion on
    an unknown id. -/
def pollCompletions : List Completion → PerKind Nat → IbvNic → Option (IbvNic × PerKind Nat)
  | [], num, nic => some (nic, num)
  | wc :: rest, num, nic =>
      match nic.requestsInFlight.find? (fun entry => entry.1 == wc.wrId) with
      | none => none
      | some (_, op, cb) =>
          let erased :=
            { nic with
              requestsInFlight := nic.requestsInFlight.eraseP (fun entry => entry.1 == wc.wrId)
              invoked := nic.invoked ++ [(wc.wrId, cb, wc.failed)] }
          pollCompletions rest (num.set op (num.get op + 1)) (posts wc.posts erased)

/-- Takes the request that waits first. -/
def popFront (op : WcOpcode) (nic : IbvNic) : IbvNic :=
  { nic with
    slots := nic.slots.set op
      { available := nic.available op, waiting := (nic.waiting op).tail } }

/-- The loop over a waiting queue; `fuel` bounds the rounds that are left. -/
def drain (op : WcOpcode) : Nat → IbvNic → IbvNic
  | 0, nic => nic
  | fuel + 1, nic =>
      match nic.waiting op with
      | [] => nic
      | r :: _ =>
          if 0 < nic.available op then drain op fuel ((nic.post op r).popFront op) else nic

/-- Frees slots, which go to the requests that wait. -/
def giveBack (op : WcOpcode) (num : Nat) (nic : IbvNic) : IbvNic :=
  let nic :=
    { nic with
      slots := nic.slots.set op
        { available := nic.available op + num, waiting := nic.waiting op } }
  drain op (nic.waiting op).length nic

/-- One poll of the completion queue. -/
def pollOnce (batch : List Completion) (nic : IbvNic) : Option IbvNic :=
  if batch = [] then some nic
  else (pollCompletions batch ⟨0, 0⟩ nic).map (fun (nic, num) =>
    giveBack .WC_RECV num.recv (giveBack .WC_SEND num.send nic))

/-- Whether the device holds no request. -/
def readyToClose (nic : IbvNic) : Bool := nic.requestsInFlight.isEmpty

/-- The device has a request and has not completed it. -/
def Outstanding (nic : IbvNic) (wrId : Nat) : Prop :=
  (∃ op wr cb, (wr, cb) ∈ nic.handed.get op ∧ wr.wrId = wrId)
    ∧ ∀ cb failed, (wrId, cb, failed) ∉ nic.invoked

/-- What happens to a NIC. -/
inductive Step where
  | postSend (info : Info)
  | postRecv (info : Info)
  | poll (batch : List Completion)
deriving DecidableEq, Repr

/-- The device completes the requests that it has, each of them once. -/
def enabled (nic : IbvNic) : Step → Prop
  | .poll batch => (batch.map Completion.wrId).Nodup ∧ ∀ wc ∈ batch, nic.Outstanding wc.wrId
  | _ => True

/-- One step of a NIC. -/
def step (nic : IbvNic) : Step → Option IbvNic
  | .postSend info => some (nic.postSend info)
  | .postRecv info => some (nic.postRecv info)
  | .poll batch => nic.pollOnce batch

/-- The states between two steps. -/
inductive Reachable : IbvNic → Prop where
  | init : Reachable {}
  | step {nic nic' : IbvNic} (h : Reachable nic) (s : Step) (henabled : nic.enabled s)
      (hstep : nic.step s = some nic') : Reachable nic'

-- ── What the NIC keeps track of ──────────────────────────────────────────────

/-- What the device is given is what was asked for: the one buffer of the call, on its queue
    pair, its length as the 32 bits of a scatter-gather element. -/
structure Carries (r : Request) (entry : WorkRequest × Nat) : Prop where
  cb : entry.2 = r.cb
  qpNum : entry.1.qpNum = r.info.qpNum
  addr : entry.1.addr = r.info.addr
  length : entry.1.length.toNat = r.info.length % UInt32.size
  lkey : entry.1.lkey = r.info.lkey

/-- The calls of a kind, in order: those whose requests the device was given, and behind them
    those that wait. -/
def HandedInOrder (nic : IbvNic) (op : WcOpcode) (waiting : List Request) : Prop :=
  ∃ given, nic.called.get op = given ++ waiting
    ∧ List.Forall₂ Carries given (nic.handed.get op)

/-- Every call is accounted for, `w` being the ones that wait; the map holds the requests that
    the device has not completed, under their own ids. -/
structure Tracked (w : PerKind (List Request)) (nic : IbvNic) : Prop where
  order : ∀ op, nic.HandedInOrder op (w.get op)
  numbers : ((nic.called.send ++ nic.called.recv).map Request.cb).Nodup
  numbered : ∀ op, ∀ r ∈ nic.called.get op, r.cb < nic.calls
  fresh : ∀ op, ∀ entry ∈ nic.handed.get op, entry.1.wrId < nic.nextRequestId
  ids : ∀ op op' entry entry', entry ∈ nic.handed.get op → entry' ∈ nic.handed.get op' →
    entry.1.wrId = entry'.1.wrId → op = op' ∧ entry = entry'
  flight : ∀ wrId op cb, (wrId, op, cb) ∈ nic.requestsInFlight
    ↔ (∃ wr, (wr, cb) ∈ nic.handed.get op ∧ wr.wrId = wrId)
      ∧ ∀ cb failed, (wrId, cb, failed) ∉ nic.invoked
  keys : (nic.requestsInFlight.map Prod.fst).Nodup
  own : ∀ wrId cb failed, (wrId, cb, failed) ∈ nic.invoked →
    ∃ op wr, (wr, cb) ∈ nic.handed.get op ∧ wr.wrId = wrId
  once : (nic.invoked.map Prod.fst).Nodup

section Tracking

variable {nic : IbvNic} {w : PerKind (List Request)} {op : WcOpcode}

/-- A new NIC has nothing to account for. -/
theorem tracked_init : Tracked ⟨[], []⟩ {} where
  order := fun op => by cases op <;> exact ⟨[], rfl, .nil⟩
  numbers := List.nodup_nil
  numbered := fun op => by cases op <;> exact nofun
  fresh := fun op => by cases op <;> exact nofun
  ids := fun op => by cases op <;> exact nofun
  flight := fun wrId op cb => by cases op <;> exact ⟨nofun, nofun⟩
  keys := List.nodup_nil
  own := nofun
  once := List.nodup_nil

/-- A new call has a number of its own. -/
theorem tracked_call (h : Tracked w nic) (op : WcOpcode) (info : Info) :
    Tracked (w.push op { info, cb := nic.calls })
      { nic with
        calls := nic.calls + 1
        called := nic.called.push op { info, cb := nic.calls } } := by
  refine ⟨?_, ?_, ?_, h.fresh, h.ids, h.flight, h.keys, h.own, h.once⟩
  · intro op'
    obtain ⟨given, hcalled, hgiven⟩ := h.order op'
    refine ⟨given, ?_, hgiven⟩
    show (nic.called.push op _).get op' = _
    by_cases hop : op' = op
    · subst hop
      rw [PerKind.get_push_self, PerKind.get_push_self, hcalled, List.append_assoc]
    · rw [PerKind.get_push_of_ne _ _ hop, PerKind.get_push_of_ne _ _ hop]
      exact hcalled
  · have hfresh : (nic.calls :: (nic.called.send ++ nic.called.recv).map Request.cb).Nodup := by
      refine List.nodup_cons.mpr ⟨fun hmem => ?_, h.numbers⟩
      obtain ⟨r, hr, hcb⟩ := List.mem_map.mp hmem
      rcases List.mem_append.mp hr with hsend | hrecv
      · exact Nat.ne_of_lt (h.numbered .WC_SEND _ hsend) hcb
      · exact Nat.ne_of_lt (h.numbered .WC_RECV _ hrecv) hcb
    rw [List.map_append] at hfresh
    cases op with
    | WC_SEND =>
        show (((nic.called.send ++ [_]) ++ nic.called.recv).map Request.cb).Nodup
        rw [List.append_assoc, List.map_append]
        exact List.nodup_middle.mpr hfresh
    | WC_RECV =>
        show ((nic.called.send ++ (nic.called.recv ++ [_])).map Request.cb).Nodup
        rw [← List.append_assoc, List.map_append, List.map_append]
        exact List.nodup_middle.mpr (by rw [List.map_nil, List.append_nil]; exact hfresh)
  · intro op' r hmem
    rcases PerKind.mem_push.mp hmem with hold | ⟨-, rfl⟩
    · exact Nat.lt_succ_of_lt (h.numbered op' r hold)
    · exact Nat.lt_succ_self _

/-- A request that was called back had an identifier. -/
theorem Tracked.invoked_lt (h : Tracked w nic) {wrId cb : Nat} {failed : Bool}
    (hmem : (wrId, cb, failed) ∈ nic.invoked) : wrId < nic.nextRequestId := by
  obtain ⟨op, wr, hhanded, rfl⟩ := h.own _ _ _ hmem
  exact h.fresh op _ hhanded

/-- A request on the device has an identifier that was given out. -/
theorem Tracked.flight_lt (h : Tracked w nic) {entry : Nat × WcOpcode × Nat}
    (hmem : entry ∈ nic.requestsInFlight) : entry.1 < nic.nextRequestId := by
  obtain ⟨wrId, op, cb⟩ := entry
  obtain ⟨⟨wr, hhanded, rfl⟩, -⟩ := (h.flight _ _ _).mp hmem
  exact h.fresh op _ hhanded

/-- The id of a new request is not in the map. -/
theorem Tracked.unused (h : Tracked w nic) :
    nic.requestsInFlight.any (fun entry => entry.1 == nic.nextRequestId) = false := by
  refine List.any_eq_false.mpr (fun entry hmem heq => ?_)
  exact Nat.lt_irrefl _ ((eq_of_beq heq) ▸ h.flight_lt hmem)

/-- The device is given the first request that waits. -/
theorem tracked_post (h : Tracked w nic) {r : Request} {rest : List Request}
    (hw : w.get op = r :: rest) (hslot : 0 < nic.available op) :
    Tracked (w.set op rest) (nic.post op r) := by
  rw [post, if_pos hslot]
  simp only [h.unused, Bool.false_eq_true, if_false]
  refine ⟨?_, h.numbers, h.numbered, ?_, ?_, ?_, ?_, ?_, h.once⟩
  · intro op'
    obtain ⟨given, hcalled, hgiven⟩ := h.order op'
    by_cases hop : op' = op
    · subst hop
      refine ⟨given ++ [r], ?_, ?_⟩
      · rw [PerKind.get_set_self, List.append_assoc, List.singleton_append, ← hw]
        exact hcalled
      · show List.Forall₂ Carries _ ((nic.handed.push _ _).get _)
        rw [PerKind.get_push_self]
        refine List.rel_append hgiven (.cons ⟨rfl, rfl, rfl, ?_, rfl⟩ .nil)
        exact UInt32.toNat_ofNat
    · refine ⟨given, ?_, ?_⟩
      · rw [PerKind.get_set_of_ne _ _ hop]
        exact hcalled
      · show List.Forall₂ Carries _ ((nic.handed.push _ _).get _)
        rw [PerKind.get_push_of_ne _ _ hop]
        exact hgiven
  · intro op' entry hmem
    rcases PerKind.mem_push.mp hmem with hold | ⟨-, rfl⟩
    · exact Nat.lt_succ_of_lt (h.fresh op' entry hold)
    · exact Nat.lt_succ_self _
  · intro op₁ op₂ entry entry' hmem hmem' heq
    rcases PerKind.mem_push.mp hmem with hold | ⟨rfl, rfl⟩
    · rcases PerKind.mem_push.mp hmem' with hold' | ⟨rfl, rfl⟩
      · exact h.ids _ _ _ _ hold hold' heq
      · exact absurd (h.fresh _ _ hold) (Nat.not_lt.mpr (Nat.le_of_eq heq.symm))
    · rcases PerKind.mem_push.mp hmem' with hold' | ⟨rfl, rfl⟩
      · exact absurd (h.fresh _ _ hold') (Nat.not_lt.mpr (Nat.le_of_eq heq))
      · exact ⟨rfl, rfl⟩
  · intro wrId op' cb
    rw [List.mem_append, h.flight, List.mem_singleton]
    constructor
    · rintro (⟨⟨wr, hhanded, rfl⟩, hno⟩ | heq)
      · exact ⟨⟨wr, PerKind.mem_push.mpr (Or.inl hhanded), rfl⟩, hno⟩
      · obtain ⟨rfl, hrest⟩ := Prod.mk.inj heq
        obtain ⟨rfl, rfl⟩ := Prod.mk.inj hrest
        refine ⟨⟨_, PerKind.mem_push.mpr (Or.inr ⟨rfl, rfl⟩), rfl⟩, ?_⟩
        exact fun cb failed hinvoked => Nat.lt_irrefl _ (h.invoked_lt hinvoked)
    · rintro ⟨⟨wr, hhanded, rfl⟩, hno⟩
      rcases PerKind.mem_push.mp hhanded with hold | ⟨rfl, hnew⟩
      · exact Or.inl ⟨⟨wr, hold, rfl⟩, hno⟩
      · obtain ⟨rfl, rfl⟩ := Prod.mk.inj hnew
        exact Or.inr rfl
  · rw [List.map_append]
    refine List.nodup_append.mpr ⟨h.keys, List.nodup_singleton _, ?_⟩
    intro key hkey key' hkey'
    obtain ⟨entry, hmem, rfl⟩ := List.mem_map.mp hkey
    rw [List.mem_singleton.mp hkey']
    exact Nat.ne_of_lt (h.flight_lt hmem)
  · intro wrId cb failed hmem
    obtain ⟨op', wr, hhanded, rfl⟩ := h.own wrId cb failed hmem
    exact ⟨op', wr, PerKind.mem_push.mpr (Or.inl hhanded), rfl⟩

/-- A completion takes its request out of the map. -/
theorem tracked_complete (h : Tracked w nic) {wrId cb : Nat} (failed : Bool)
    {rest : List (Nat × WcOpcode × Nat)}
    (hperm : nic.requestsInFlight.Perm ((wrId, op, cb) :: rest)) :
    Tracked w
      { nic with
        requestsInFlight := rest
        invoked := nic.invoked ++ [(wrId, cb, failed)] } := by
  obtain ⟨⟨wr, hhanded, hwr⟩, hno⟩ :=
    (h.flight _ _ _).mp (hperm.mem_iff.mpr (List.mem_cons_self ..))
  have hkeys : (wrId :: rest.map Prod.fst).Nodup := (hperm.map Prod.fst).nodup_iff.mp h.keys
  obtain ⟨hgone, hrest⟩ := List.nodup_cons.mp hkeys
  refine ⟨h.order, h.numbers, h.numbered, h.fresh, h.ids, ?_, hrest, ?_, ?_⟩
  · intro wrId' op' cb'
    have hmem : (wrId', op', cb') ∈ rest
        ↔ (wrId', op', cb') ∈ nic.requestsInFlight ∧ wrId' ≠ wrId := by
      rw [hperm.mem_iff, List.mem_cons]
      constructor
      · intro hin
        refine ⟨Or.inr hin, ?_⟩
        rintro rfl
        exact hgone (List.mem_map.mpr ⟨_, hin, rfl⟩)
      · rintro ⟨heq | hin, hne⟩
        · exact absurd (Prod.mk.inj heq).1 hne
        · exact hin
    rw [hmem, h.flight]
    constructor
    · rintro ⟨⟨hhanded', hno'⟩, hne⟩
      refine ⟨hhanded', fun cb'' failed' hinvoked => ?_⟩
      rcases List.mem_append.mp hinvoked with hold | hnew
      · exact hno' _ _ hold
      · exact hne (Prod.mk.inj (List.mem_singleton.mp hnew)).1
    · rintro ⟨hhanded', hno'⟩
      refine ⟨⟨hhanded', fun cb'' failed' hinvoked => ?_⟩, ?_⟩
      · exact hno' _ _ (List.mem_append_left _ hinvoked)
      · rintro rfl
        exact hno' _ _ (List.mem_append_right _ (List.mem_singleton_self _))
  · intro wrId' cb' failed' hinvoked
    rcases List.mem_append.mp hinvoked with hold | hnew
    · exact h.own _ _ _ hold
    · obtain ⟨rfl, heq⟩ := Prod.mk.inj (List.mem_singleton.mp hnew)
      obtain ⟨rfl, rfl⟩ := Prod.mk.inj heq
      exact ⟨op, wr, hhanded, hwr⟩
  · rw [List.map_append]
    refine List.nodup_append.mpr ⟨h.once, List.nodup_singleton _, ?_⟩
    rintro key hkey key' hkey' rfl
    obtain ⟨⟨wrId', cb', failed'⟩, hinvoked, rfl⟩ := List.mem_map.mp hkey
    obtain rfl : wrId' = wrId := List.mem_singleton.mp hkey'
    exact hno _ _ hinvoked

end Tracking

-- ── Slots ────────────────────────────────────────────────────────────────────

/-- The requests of a kind on the device. -/
def inFlight (nic : IbvNic) (op : WcOpcode) : Nat :=
  nic.requestsInFlight.countP (fun entry => entry.2.1 == op)

/-- The two waiting queues. -/
def waitingRequests (nic : IbvNic) : PerKind (List Request) :=
  ⟨nic.waiting .WC_SEND, nic.waiting .WC_RECV⟩

/-- The invariant in the middle of a batch, of which `num` requests were completed. -/
structure NicInv (num : PerKind Nat) (nic : IbvNic) : Prop where
  tracked : Tracked nic.waitingRequests nic
  slots : ∀ op, nic.available op + nic.inFlight op + num.get op = op.capacity
  waits : ∀ op, nic.waiting op ≠ [] → nic.available op = 0

section Slots

variable {nic : IbvNic} {num : PerKind Nat} {op : WcOpcode}

/-- The requests of a kind that wait. -/
theorem get_waitingRequests (nic : IbvNic) (op : WcOpcode) :
    nic.waitingRequests.get op = nic.waiting op := by
  cases op <;> rfl

/-- A new NIC satisfies the invariant. -/
theorem nicInv_init : NicInv ⟨0, 0⟩ {} :=
  ⟨tracked_init, fun op => by cases op <;> rfl, fun op h => by cases op <;> exact absurd rfl h⟩

/-- Handing a request over costs a slot of its kind. -/
theorem post_slots {w : PerKind (List Request)} (h : Tracked w nic) (r : Request)
    (hslot : 0 < nic.available op) (op' : WcOpcode) :
    (nic.post op r).available op' + (nic.post op r).inFlight op'
        = nic.available op' + nic.inFlight op'
      ∧ (nic.post op r).waiting op' = nic.waiting op'
      ∧ (op' ≠ op → (nic.post op r).available op' = nic.available op') := by
  have hflight : (nic.post op r).requestsInFlight
      = nic.requestsInFlight ++ [(nic.nextRequestId, op, r.cb)] := by
    rw [post, if_pos hslot]
    simp only [h.unused, Bool.false_eq_true, if_false]
  have hslots : (nic.post op r).slots = nic.slots.set op
      { available := nic.available op - 1, waiting := nic.waiting op } := by
    rw [post, if_pos hslot]
  rw [inFlight, hflight, List.countP_append, List.countP_singleton, available, waiting, hslots]
  by_cases hop : op' = op
  · subst hop
    rw [PerKind.get_set_self]
    refine ⟨?_, rfl, fun hne => absurd rfl hne⟩
    show nic.available op' - 1 + (_ + if (op' == op') = true then 1 else 0) = _
    rw [if_pos (beq_self_eq_true op')]
    show _ = nic.available op' + nic.requestsInFlight.countP _
    omega
  · rw [PerKind.get_set_of_ne _ _ hop]
    refine ⟨?_, rfl, fun _ => rfl⟩
    rw [if_neg (fun heq => hop (eq_of_beq heq).symm)]
    rfl

/-- A request that finds no slot waits behind the others. -/
theorem post_queued {r : Request} (hslot : ¬ 0 < nic.available op) (op' : WcOpcode) :
    (nic.post op r).available op' = nic.available op'
      ∧ (nic.post op r).waiting op' = nic.waiting op' ++ (if op' = op then [r] else []) := by
  have hslots : (nic.post op r).slots = nic.slots.set op
      { available := nic.available op, waiting := nic.waiting op ++ [r] } := by
    rw [post, if_neg hslot]
  by_cases hop : op' = op
  · subst hop
    rw [available, waiting, hslots, PerKind.get_set_self, if_pos rfl]
    exact ⟨rfl, rfl⟩
  · rw [available, waiting, hslots, PerKind.get_set_of_ne _ _ hop, if_neg hop, List.append_nil]
    exact ⟨rfl, rfl⟩

/-- A call that was counted gets its slot, or its place in the queue. -/
theorem nicInv_post {r : Request} (htracked : Tracked (nic.waitingRequests.push op r) nic)
    (hslots : ∀ op, nic.available op + nic.inFlight op + num.get op = op.capacity)
    (hwaits : ∀ op, nic.waiting op ≠ [] → nic.available op = 0) : NicInv num (nic.post op r) := by
  by_cases hslot : 0 < nic.available op
  · -- nothing waits, so the new request is the next one
    have hempty : nic.waiting op = [] := by
      by_contra hne
      rw [hwaits op hne] at hslot
      exact Nat.lt_irrefl 0 hslot
    have hnext : (nic.waitingRequests.push op r).get op = [r] := by
      rw [PerKind.get_push_self, get_waitingRequests, hempty]
      rfl
    have hpost := post_slots htracked r hslot
    have hw : (nic.waitingRequests.push op r).set op [] = (nic.post op r).waitingRequests := by
      refine PerKind.ext_get (fun op' => ?_)
      rw [get_waitingRequests, (hpost op').2.1]
      by_cases hop : op' = op
      · subst hop
        rw [PerKind.get_set_self, hempty]
      · rw [PerKind.get_set_of_ne _ _ hop, PerKind.get_push_of_ne _ _ hop, get_waitingRequests]
    refine ⟨?_, fun op' => ?_, fun op' hne => ?_⟩
    · rw [← hw]
      exact tracked_post htracked hnext hslot
    · rw [(hpost op').1]
      exact hslots op'
    · rw [(hpost op').2.1] at hne
      have hop : op' ≠ op := fun heq => hne (heq ▸ hempty)
      rw [(hpost op').2.2 hop]
      exact hwaits op' hne
  · have hpost := @post_queued nic op r hslot
    have hw : nic.waitingRequests.push op r = (nic.post op r).waitingRequests := by
      refine PerKind.ext_get (fun op' => ?_)
      rw [get_waitingRequests, (hpost op').2]
      by_cases hop : op' = op
      · subst hop
        rw [if_pos rfl, PerKind.get_push_self, get_waitingRequests]
      · rw [if_neg hop, PerKind.get_push_of_ne _ _ hop, get_waitingRequests, List.append_nil]
    refine ⟨?_, fun op' => ?_, fun op' hne => ?_⟩
    · rw [← hw, post, if_neg hslot]
      exact ⟨htracked.order, htracked.numbers, htracked.numbered, htracked.fresh, htracked.ids,
        htracked.flight, htracked.keys, htracked.own, htracked.once⟩
    · rw [(hpost op').1, post, if_neg hslot]
      exact hslots op'
    · rw [(hpost op').1]
      rw [(hpost op').2] at hne
      by_cases hop : op' = op
      · subst hop
        exact Nat.eq_zero_of_not_pos hslot
      · rw [if_neg hop, List.append_nil] at hne
        exact hwaits op' hne

/-- A call keeps the invariant. -/
theorem nicInv_call (h : NicInv num nic) (op : WcOpcode) (info : Info) :
    NicInv num (nic.call op info) :=
  nicInv_post (tracked_call h.tracked op info) h.slots h.waits

/-- The calls of a callback keep the invariant. -/
theorem nicInv_posts (ps : List (WcOpcode × Info)) (h : NicInv num nic) :
    NicInv num (posts ps nic) := by
  induction ps generalizing nic with
  | nil => exact h
  | cons p rest ih =>
      obtain ⟨op, info⟩ := p
      cases op with
      | WC_SEND => exact ih (nicInv_call h .WC_SEND info)
      | WC_RECV => exact ih (nicInv_call h .WC_RECV info)

-- ── Batches ──────────────────────────────────────────────────────────────────

/-- The element that is found and the others. -/
theorem perm_of_find? {α : Type} {p : α → Bool} {l : List α} {b : α} (h : l.find? p = some b) :
    l.Perm (b :: l.eraseP p) := by
  induction l with
  | nil => exact nomatch h
  | cons a rest ih =>
      by_cases hp : p a = true
      · rw [List.find?_cons_of_pos hp] at h
        rw [List.eraseP_cons_of_pos hp, Option.some.inj h]
      · rw [List.find?_cons_of_neg hp] at h
        rw [List.eraseP_cons_of_neg hp]
        exact ((ih h).cons a).trans (.swap ..)

/-- One completion of a batch. -/
theorem nicInv_complete (h : NicInv num nic) {wrId wrId' cb : Nat} (failed : Bool)
    (hfind : nic.requestsInFlight.find? (fun entry => entry.1 == wrId) = some (wrId', op, cb)) :
    NicInv (num.set op (num.get op + 1))
      { nic with
        requestsInFlight := nic.requestsInFlight.eraseP (fun entry => entry.1 == wrId)
        invoked := nic.invoked ++ [(wrId, cb, failed)] } := by
  have hkey := List.find?_some hfind
  obtain rfl : wrId' = wrId := eq_of_beq hkey
  have hperm := perm_of_find? hfind
  refine ⟨tracked_complete h.tracked failed hperm, fun op' => ?_, h.waits⟩
  have hslots := h.slots op'
  have hcount := hperm.countP_eq (fun entry : Nat × WcOpcode × Nat => entry.2.1 == op')
  rw [inFlight, hcount, List.countP_cons] at hslots
  show nic.available op' + (nic.requestsInFlight.eraseP _).countP _ + _ = _
  by_cases hop : op' = op
  · subst hop
    rw [if_pos (beq_self_eq_true op')] at hslots
    rw [PerKind.get_set_self]
    omega
  · rw [if_neg (fun heq => hop (eq_of_beq heq).symm)] at hslots
    rw [PerKind.get_set_of_ne _ _ hop]
    exact hslots

/-- What a callback posts leaves what happened before as it was. -/
theorem call_frame (nic : IbvNic) (op : WcOpcode) (info : Info) :
    (nic.call op info).invoked = nic.invoked
      ∧ ∀ op' entry, entry ∈ nic.handed.get op' → entry ∈ (nic.call op info).handed.get op' := by
  rw [call, post]
  split
  · exact ⟨rfl, fun op' entry hmem => PerKind.mem_push.mpr (Or.inl hmem)⟩
  · exact ⟨rfl, fun op' entry hmem => hmem⟩

/-- The calls of a callback call nobody back and hand out what they must. -/
theorem posts_frame (ps : List (WcOpcode × Info)) (nic : IbvNic) :
    (posts ps nic).invoked = nic.invoked
      ∧ ∀ op' entry, entry ∈ nic.handed.get op' → entry ∈ (posts ps nic).handed.get op' := by
  induction ps generalizing nic with
  | nil => exact ⟨rfl, fun _ _ hmem => hmem⟩
  | cons p rest ih =>
      obtain ⟨op, info⟩ := p
      obtain ⟨hinvoked, hhanded⟩ := call_frame nic op info
      cases op with
      | WC_SEND =>
          obtain ⟨hinvoked', hhanded'⟩ := ih (nic.postSend info)
          exact ⟨hinvoked'.trans hinvoked, fun op' entry hmem =>
            hhanded' op' entry (hhanded op' entry hmem)⟩
      | WC_RECV =>
          obtain ⟨hinvoked', hhanded'⟩ := ih (nic.postRecv info)
          exact ⟨hinvoked'.trans hinvoked, fun op' entry hmem =>
            hhanded' op' entry (hhanded op' entry hmem)⟩

/-- The request of an outstanding completion is in the map. -/
theorem find?_of_outstanding {wrId : Nat} (h : NicInv num nic) (hout : nic.Outstanding wrId) :
    ∃ op cb, nic.requestsInFlight.find? (fun entry => entry.1 == wrId) = some (wrId, op, cb) := by
  obtain ⟨⟨op, wr, cb, hhanded, hwr⟩, hno⟩ := hout
  have hmem : (wrId, op, cb) ∈ nic.requestsInFlight :=
    (h.tracked.flight _ _ _).mpr ⟨⟨wr, hhanded, hwr⟩, hno⟩
  cases hfind : nic.requestsInFlight.find? (fun entry => entry.1 == wrId) with
  | none => exact absurd (beq_self_eq_true wrId) (List.find?_eq_none.mp hfind _ hmem)
  | some entry =>
      obtain ⟨wrId', op', cb'⟩ := entry
      have hkey := List.find?_some hfind
      obtain rfl : wrId' = wrId := eq_of_beq hkey
      exact ⟨op', cb', rfl⟩

/-- **Batch lemma.**  No completion is unknown, and the slots of the completed requests are
    all that is missing. -/
theorem nicInv_pollCompletions (batch : List Completion)
    (h : NicInv num nic) (hnodup : (batch.map Completion.wrId).Nodup)
    (hout : ∀ wc ∈ batch, nic.Outstanding wc.wrId) :
    ∃ nic' num', pollCompletions batch num nic = some (nic', num') ∧ NicInv num' nic' := by
  induction batch generalizing nic num with
  | nil => exact ⟨nic, num, rfl, h⟩
  | cons wc rest ih =>
      obtain ⟨op, cb, hfind⟩ := find?_of_outstanding h (hout wc (List.mem_cons_self ..))
      obtain ⟨hne, hrest⟩ := List.nodup_cons.mp hnodup
      have hnext := nicInv_posts wc.posts (nicInv_complete h wc.failed hfind)
      have hother : ∀ wc' ∈ rest, (posts wc.posts { nic with
          requestsInFlight := nic.requestsInFlight.eraseP (fun entry => entry.1 == wc.wrId)
          invoked := nic.invoked ++ [(wc.wrId, cb, wc.failed)] }).Outstanding wc'.wrId := by
        intro wc' hwc'
        obtain ⟨⟨op', wr, cb', hhanded, hwr⟩, hno⟩ := hout wc' (List.mem_cons_of_mem _ hwc')
        have hframe := posts_frame wc.posts { nic with
          requestsInFlight := nic.requestsInFlight.eraseP (fun entry => entry.1 == wc.wrId)
          invoked := nic.invoked ++ [(wc.wrId, cb, wc.failed)] }
        refine ⟨⟨op', wr, cb', hframe.2 op' _ hhanded, hwr⟩, fun cb'' failed hmem => ?_⟩
        rw [hframe.1] at hmem
        rcases List.mem_append.mp hmem with hold | hnew
        · exact hno _ _ hold
        · have heq := (Prod.mk.inj (List.mem_singleton.mp hnew)).1
          exact hne (List.mem_map.mpr ⟨wc', hwc', heq⟩)
      obtain ⟨nic', num', hpoll, hinv⟩ := ih hnext hrest hother
      refine ⟨nic', num', ?_, hinv⟩
      rw [pollCompletions, hfind]
      exact hpoll

/-- Taking the first request that waits frees no slot. -/
theorem popFront_slots (nic : IbvNic) (op op' : WcOpcode) :
    (nic.popFront op).available op' = nic.available op'
      ∧ (nic.popFront op).waiting op'
        = if op' = op then (nic.waiting op).tail else nic.waiting op' := by
  rw [available, waiting, popFront]
  by_cases hop : op' = op
  · subst hop
    rw [PerKind.get_set_self, if_pos rfl]
    exact ⟨rfl, rfl⟩
  · rw [PerKind.get_set_of_ne _ _ hop, if_neg hop]
    exact ⟨rfl, rfl⟩

/-- One round of the loop. -/
theorem drain_round {r : Request} {rest : List Request} (htracked : Tracked nic.waitingRequests nic)
    (hwaiting : nic.waiting op = r :: rest) (hslot : 0 < nic.available op) :
    Tracked ((nic.post op r).popFront op).waitingRequests ((nic.post op r).popFront op)
      ∧ ((nic.post op r).popFront op).waiting op = rest
      ∧ ∀ op', ((nic.post op r).popFront op).available op'
            + ((nic.post op r).popFront op).inFlight op' = nic.available op' + nic.inFlight op'
        ∧ (op' ≠ op → ((nic.post op r).popFront op).waiting op' = nic.waiting op'
          ∧ ((nic.post op r).popFront op).available op' = nic.available op') := by
  have hw : nic.waitingRequests.get op = r :: rest := by
    rw [get_waitingRequests, hwaiting]
  have hpost := post_slots htracked r hslot
  have hpop := popFront_slots (nic.post op r) op
  have hrest : ((nic.post op r).popFront op).waiting op = rest := by
    rw [(hpop op).2, if_pos rfl, (hpost op).2.1, hwaiting]
    rfl
  have hcbs : nic.waitingRequests.set op rest
      = ((nic.post op r).popFront op).waitingRequests := by
    refine PerKind.ext_get (fun op' => ?_)
    rw [get_waitingRequests]
    by_cases hop : op' = op
    · subst hop
      rw [PerKind.get_set_self, hrest]
    · rw [PerKind.get_set_of_ne _ _ hop, get_waitingRequests, (hpop op').2, if_neg hop, (hpost op').2.1]
  have hnext := tracked_post htracked hw hslot
  refine ⟨?_, hrest, fun op' => ⟨?_, fun hop => ⟨?_, ?_⟩⟩⟩
  · rw [← hcbs]
    exact ⟨hnext.order, hnext.numbers, hnext.numbered, hnext.fresh, hnext.ids, hnext.flight,
      hnext.keys, hnext.own, hnext.once⟩
  · rw [(hpop op').1]
    exact (hpost op').1
  · rw [(hpop op').2, if_neg hop, (hpost op').2.1]
  · rw [(hpop op').1, (hpost op').2.2 hop]

/-- **Drain lemma.**  The loop ends when nothing waits or no slot is left. -/
theorem nicInv_drain (op : WcOpcode) :
    ∀ (fuel : Nat) (nic : IbvNic), (nic.waiting op).length ≤ fuel →
      Tracked nic.waitingRequests nic →
      (∀ op, nic.available op + nic.inFlight op + num.get op = op.capacity) →
      (∀ op', op' ≠ op → nic.waiting op' ≠ [] → nic.available op' = 0) →
      NicInv num (drain op fuel nic) := by
  intro fuel
  induction fuel with
  | zero =>
      intro nic hfuel htracked hslots hwaits
      refine ⟨htracked, hslots, fun op' hne => ?_⟩
      by_cases hop : op' = op
      · subst hop
        exact absurd (List.length_eq_zero_iff.mp (Nat.le_zero.mp hfuel)) hne
      · exact hwaits op' hop hne
  | succ fuel ih =>
      intro nic hfuel htracked hslots hwaits
      rw [drain]
      cases hwaiting : nic.waiting op with
      | nil =>
          refine ⟨htracked, hslots, fun op' hne => ?_⟩
          exact hwaits op' (fun heq => hne (heq ▸ hwaiting)) hne
      | cons r rest =>
          show NicInv num (if 0 < nic.available op then drain op fuel _ else nic)
          by_cases hslot : 0 < nic.available op
          · rw [if_pos hslot]
            obtain ⟨htracked', hrest, hround⟩ := drain_round htracked hwaiting hslot
            rw [hwaiting, List.length_cons] at hfuel
            refine ih _ (by rw [hrest]; omega) htracked' (fun op' => ?_) (fun op' hop hne => ?_)
            · rw [(hround op').1]
              exact hslots op'
            · rw [((hround op').2 hop).1] at hne
              rw [((hround op').2 hop).2]
              exact hwaits op' hop hne
          · rw [if_neg hslot]
            refine ⟨htracked, hslots, fun op' hne => ?_⟩
            by_cases hop : op' = op
            · subst hop
              exact Nat.eq_zero_of_not_pos hslot
            · exact hwaits op' hop hne

/-- The slots of the completed requests of one kind are given back. -/
theorem nicInv_giveBack (h : NicInv num nic) (op : WcOpcode) :
    NicInv (num.set op 0) (nic.giveBack op (num.get op)) := by
  rw [giveBack]
  have hget : ∀ op', ((nic.slots.set op { available := nic.available op + num.get op
                                          waiting := nic.waiting op } : PerKind Slots)).get op'
      = { available := nic.available op' + if op' = op then num.get op else 0
          waiting := nic.waiting op' } := by
    intro op'
    by_cases hop : op' = op
    · subst hop
      rw [PerKind.get_set_self, if_pos rfl]
    · rw [PerKind.get_set_of_ne _ _ hop, if_neg hop]
      rfl
  have hcbs : waitingRequests { nic with
      slots := nic.slots.set op { available := nic.available op + num.get op
                                  waiting := nic.waiting op } } = nic.waitingRequests := by
    refine PerKind.ext_get (fun op' => ?_)
    rw [get_waitingRequests, get_waitingRequests, waiting, hget]
  refine nicInv_drain op _ _ (Nat.le_refl _) ?_ (fun op' => ?_) (fun op' hop hne => ?_)
  · rw [hcbs]
    have ht := h.tracked
    exact ⟨ht.order, ht.numbers, ht.numbered, ht.fresh, ht.ids, ht.flight, ht.keys, ht.own, ht.once⟩
  · rw [available, hget]
    have hslots := h.slots op'
    show nic.available op' + _ + nic.inFlight op' + _ = _
    by_cases hop : op' = op
    · subst hop
      rw [if_pos rfl, PerKind.get_set_self]
      omega
    · rw [if_neg hop, PerKind.get_set_of_ne _ _ hop]
      omega
  · rw [waiting, hget] at hne
    rw [available, hget, if_neg hop]
    exact h.waits op' hne

/-- **Poll lemma.** -/
theorem nicInv_pollOnce {batch : List Completion} (h : NicInv ⟨0, 0⟩ nic)
    (hnodup : (batch.map Completion.wrId).Nodup)
    (hout : ∀ wc ∈ batch, nic.Outstanding wc.wrId) :
    ∃ nic', nic.pollOnce batch = some nic' ∧ NicInv ⟨0, 0⟩ nic' := by
  rw [pollOnce]
  by_cases hempty : batch = []
  · rw [if_pos hempty]
    exact ⟨nic, rfl, h⟩
  · rw [if_neg hempty]
    obtain ⟨nic', num, hpoll, hinv⟩ := nicInv_pollCompletions batch h hnodup hout
    rw [hpoll]
    exact ⟨_, rfl, nicInv_giveBack (nicInv_giveBack hinv .WC_SEND) .WC_RECV⟩

end Slots

-- ── Runs ─────────────────────────────────────────────────────────────────────

section Runs

variable {nic : IbvNic}

/-- **Step lemma.**  No step fails an assertion. -/
theorem nicInv_step (h : NicInv ⟨0, 0⟩ nic) (s : Step) (henabled : nic.enabled s) :
    ∃ nic', nic.step s = some nic' ∧ NicInv ⟨0, 0⟩ nic' := by
  cases s with
  | postSend info => exact ⟨_, rfl, nicInv_call h .WC_SEND info⟩
  | postRecv info => exact ⟨_, rfl, nicInv_call h .WC_RECV info⟩
  | poll batch => exact nicInv_pollOnce h henabled.1 henabled.2

/-- **Run lemma.** -/
theorem nicInv_reachable (h : Reachable nic) : NicInv ⟨0, 0⟩ nic := by
  induction h with
  | init => exact nicInv_init
  | step _ s henabled hstep ih =>
      obtain ⟨nic'', hstep', hinv⟩ := nicInv_step ih s henabled
      rw [hstep] at hstep'
      rw [Option.some.inj hstep']
      exact hinv

/-- The requests handed over have the callbacks of their calls. -/
theorem cbs_of_carries {given : List Request} {entries : List (WorkRequest × Nat)}
    (h : List.Forall₂ Carries given entries) :
    given.map Request.cb = entries.map Prod.snd := by
  induction h with
  | nil => rfl
  | cons hfirst _ ih => rw [List.map_cons, List.map_cons, ih, hfirst.cb]

/-- The callbacks that were handed over are those of the first calls. -/
theorem HandedInOrder.cbs {op : WcOpcode} {waiting : List Request}
    (h : nic.HandedInOrder op waiting) : (nic.called.get op).map Request.cb
      = (nic.handed.get op).map Prod.snd ++ waiting.map Request.cb := by
  obtain ⟨given, hcalled, hgiven⟩ := h
  rw [hcalled, List.map_append, cbs_of_carries hgiven]

/-- A callback is handed over with one request. -/
theorem Tracked.handed_unique {w : PerKind (List Request)} (h : Tracked w nic)
    {op op' : WcOpcode} {entry entry' : WorkRequest × Nat} (hmem : entry ∈ nic.handed.get op)
    (hmem' : entry' ∈ nic.handed.get op') (heq : entry.2 = entry'.2) : entry = entry' := by
  have hcalled : ∀ {op : WcOpcode} {entry : WorkRequest × Nat}, entry ∈ nic.handed.get op →
      entry.2 ∈ (nic.called.get op).map Request.cb := by
    intro op entry hmem
    rw [(h.order op).cbs]
    exact List.mem_append_left _ (List.mem_map.mpr ⟨entry, hmem, rfl⟩)
  have hnumbers := h.numbers
  rw [List.map_append] at hnumbers
  obtain ⟨hsend, hrecv, hdisjoint⟩ := List.nodup_append.mp hnumbers
  have hnodup : ∀ op, ((nic.handed.get op).map Prod.snd).Nodup := by
    intro op
    have hkind : ((nic.called.get op).map Request.cb).Nodup := by
      cases op
      · exact hsend
      · exact hrecv
    rw [(h.order op).cbs] at hkind
    exact (List.nodup_append.mp hkind).1
  cases op <;> cases op'
  · exact List.inj_on_of_nodup_map (hnodup .WC_SEND) hmem hmem' heq
  · exact absurd heq (hdisjoint _ (hcalled hmem) _ (hcalled hmem'))
  · exact absurd heq.symm (hdisjoint _ (hcalled hmem') _ (hcalled hmem))
  · exact List.inj_on_of_nodup_map (hnodup .WC_RECV) hmem hmem' heq

/-- What the NIC promises in a state between two polls. -/
structure SlotAccounting (nic : IbvNic) : Prop where
  /-- Every slot is available or taken by a request in flight. -/
  slots : ∀ op, nic.available op + nic.inFlight op = op.capacity
  /-- A request waits only while no slot of its kind is available. -/
  waits : ∀ op, nic.waiting op ≠ [] → nic.available op = 0
  /-- The device is given the requests of a kind as they were called for, in the order of the
      calls; those that it has not been given wait, in order too. -/
  order : ∀ op, nic.HandedInOrder op (nic.waiting op)
  /-- No callback is invoked twice. -/
  once : (nic.invoked.map (fun entry => entry.2.1)).Nodup
  /-- A completion invokes the callback of the request with its id, and of no other. -/
  own : ∀ wrId cb failed, (wrId, cb, failed) ∈ nic.invoked →
    (∃ op wr, (wr, cb) ∈ nic.handed.get op ∧ wr.wrId = wrId)
      ∧ ∀ op wr cb', (wr, cb') ∈ nic.handed.get op → (wr.wrId = wrId ↔ cb' = cb)
  /-- A NIC that is ready to close has nothing in flight, and nothing waits. -/
  close : nic.readyToClose = true →
    (∀ wrId, ¬ nic.Outstanding wrId) ∧ ∀ op, nic.waiting op = []

/-- **Slot accounting.**  In every state between two polls of every run, whatever the
    completion callbacks post. -/
theorem slot_accounting (h : Reachable nic) : SlotAccounting nic := by
  have hinv := nicInv_reachable h
  have ht := hinv.tracked
  refine ⟨fun op => ?_, hinv.waits, fun op => ?_, ?_, ?_, fun hready => ?_⟩
  · have hslots := hinv.slots op
    have hzero : (PerKind.get ⟨0, 0⟩ op : Nat) = 0 := by cases op <;> rfl
    rw [hzero, Nat.add_zero] at hslots
    exact hslots
  · rw [← get_waitingRequests]
    exact ht.order op
  · refine List.Nodup.map_on ?_ (List.Nodup.of_map Prod.fst ht.once)
    rintro ⟨wrId, cb, failed⟩ hmem ⟨wrId', cb', failed'⟩ hmem' heq
    obtain ⟨op, wr, hhanded, rfl⟩ := ht.own _ _ _ hmem
    obtain ⟨op', wr', hhanded', rfl⟩ := ht.own _ _ _ hmem'
    have hsame := ht.handed_unique hhanded hhanded' heq
    obtain ⟨rfl, -⟩ := Prod.mk.inj hsame
    exact List.inj_on_of_nodup_map ht.once hmem hmem' rfl
  · intro wrId cb failed hmem
    obtain ⟨op, wr, hhanded, rfl⟩ := ht.own _ _ _ hmem
    refine ⟨⟨op, wr, hhanded, rfl⟩, fun op' wr' cb' hhanded' => ⟨fun heq => ?_, fun heq => ?_⟩⟩
    · exact (Prod.mk.inj (ht.ids _ _ _ _ hhanded' hhanded heq).2).2
    · exact congrArg WorkRequest.wrId (Prod.mk.inj (ht.handed_unique hhanded' hhanded heq)).1
  · have hempty : nic.requestsInFlight = [] := List.isEmpty_iff.mp hready
    refine ⟨?_, fun op => ?_⟩
    · rintro wrId ⟨⟨op, wr, cb, hhanded, hwr⟩, hno⟩
      have hmem := (ht.flight wrId op cb).mpr ⟨⟨wr, hhanded, hwr⟩, hno⟩
      rw [hempty] at hmem
      exact nomatch hmem
    · by_contra hne
      have hslots := hinv.slots op
      rw [hinv.waits op hne, inFlight, hempty] at hslots
      cases op <;> exact nomatch hslots

/-- A message to be sent. -/
def sampleSend : Info := { qpNum := 7, addr := 4096, length := 5, lkey := 3 }

/-- A buffer to receive into. -/
def sampleRecv : Info := { qpNum := 9, addr := 8192, length := 6, lkey := 4 }

/-- Two sends, of which the second completes first and its callback posts a recv. -/
theorem slot_accounting_reposted : ∃ nic, Reachable nic ∧ SlotAccounting nic
    ∧ nic.called = ⟨[⟨sampleSend, 0⟩, ⟨sampleRecv, 1⟩], [⟨sampleRecv, 2⟩]⟩
    ∧ nic.invoked = [(1, 1, false)] ∧ nic.inFlight .WC_SEND = 1 ∧ nic.inFlight .WC_RECV = 1 := by
  have hposted : Reachable _ := .step (.step .init (.postSend sampleSend) trivial rfl)
    (.postSend sampleRecv) trivial rfl
  have hrun : Reachable _ := .step hposted
    (.poll [{ wrId := 1, failed := false, posts := [(.WC_RECV, sampleRecv)] }])
    ⟨List.nodup_singleton _, List.forall_mem_singleton.mpr
      ⟨⟨.WC_SEND, _, 1, List.mem_cons_of_mem _ (List.mem_singleton_self _), rfl⟩, nofun⟩⟩ rfl
  exact ⟨_, hrun, slot_accounting hrun, rfl, rfl, rfl, rfl⟩

end Runs

end IbvNic

end TpCudaGdr
