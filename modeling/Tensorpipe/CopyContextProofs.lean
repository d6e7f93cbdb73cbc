import Mathlib.Data.List.Nodup
import Mathlib.Logic.Relation
import Tensorpipe.CopyChannelProofs

/-! # The cma context — the copy thread and its queue

    The channels of a context ask it for copies, which a thread of the context does one after
    the other.  The thread ends when it finds the terminator in its queue, and nobody looks at
    what is behind it.

    The idea of the proofs: a channel in error asks for no copy (`step_copies`), and when the
    context pushes the terminator all its channels are in error, those that come later too. -/

namespace TpCopy

open TpStateMachine

-- ── A channel in error asks for nothing ──────────────────────────────────────

section Issued

variable {D : Type}

/-- In error a receive calls no other component. -/
theorem recv_issues_nothing (issued : List (RecvCall D)) :
    KeepsLive (advanceRecvOperation true) (fun io : Io (RecvCall D) => io.issued = issued) := by
  intro t ht hlive
  simp only [advanceRecvOperation, List.mem_cons, List.not_mem_nil, or_false] at ht
  rcases ht with rfl | rfl | rfl | rfl | rfl | rfl
  · exact List.forall_mem_singleton.mpr (fun io op hio => hio)
  · obtain ⟨op, prev, hcond⟩ := hlive
    cases hcond
  · exact List.forall_mem_singleton.mpr (fun io op hio => hio)
  · obtain ⟨op, prev, hcond⟩ := hlive
    cases hcond
  · exact List.forall_mem_singleton.mpr (fun io op hio => hio)
  · obtain ⟨op, prev, hcond⟩ := hlive
    cases hcond

/-- Without an error, a channel only adds to what it issued. -/
theorem recv_issues_more (error : Bool) (issued : List (RecvCall D)) :
    Keeps (advanceRecvOperation error) (fun io : Io (RecvCall D) => issued <+: io.issued) := by
  intro t ht
  simp only [advanceRecvOperation, List.mem_cons, List.not_mem_nil, or_false] at ht
  rcases ht with rfl | rfl | rfl | rfl | rfl | rfl
  · exact List.forall_mem_singleton.mpr (fun io op hio => hio)
  · exact List.forall_mem_singleton.mpr (fun io op hio => hio.trans (List.prefix_append ..))
  · exact List.forall_mem_singleton.mpr (fun io op hio => hio)
  · exact List.forall_mem_singleton.mpr (fun io op hio => hio.trans (List.prefix_append ..))
  · exact List.forall_mem_singleton.mpr (fun io op hio => hio)
  · exact List.forall_mem_cons.mpr ⟨fun io op hio => hio, List.forall_mem_singleton.mpr
      (fun io op hio => hio.trans (List.prefix_append ..))⟩

end Issued

namespace ChannelImpl

variable {D : Type} {describe : Nat → D} {x : ChannelImpl D}

/-- A second error is ignored. -/
theorem setError_of_error (failed : Bool) (h : x.error = true) : x.setError describe failed = x := by
  rw [setError, h]
  rfl

/-- The error after setting one. -/
theorem setError_error (failed : Bool) : (x.setError describe failed).error = (x.error || failed) := by
  cases herror : x.error with
  | true =>
      rw [setError_of_error failed herror, herror]
      rfl
  | false =>
      cases failed with
      | true =>
          rw [setError, herror]
          rfl
      | false =>
          rw [setError, if_pos (show (x.error || !false) = true from Bool.or_true _), herror]
          rfl

/-- Dealing with an error issues nothing. -/
theorem setError_issued (failed : Bool) :
    (x.setError describe failed).recv.io.issued = x.recv.io.issued := by
  rw [setError]
  by_cases hskip : (x.error || !failed) = true
  · rw [if_pos hskip]
  · rw [if_neg hskip]
    exact advanceAllOperations_keeps (recv_issues_nothing _) rfl

variable [DecidableEq D]

/-- A callback of the receiving side sets no error. -/
theorem onRecvReport_error (call : RecvCall D) (descriptor : D) :
    (x.onRecvReport call descriptor).error = x.error := by
  cases call <;> rfl

/-- A callback of the sending side sets no error. -/
theorem onSendReport_error (call : SendCall D) :
    (x.onSendReport describe call).error = x.error := by
  cases call <;> rfl

/-- A callback of the sending side leaves the receiving side alone. -/
theorem onSendReport_recv (call : SendCall D) : (x.onSendReport describe call).recv = x.recv := by
  cases call <;> rfl

/-- A report to a channel in error leads to nothing. -/
theorem onRecvReport_issued (call : RecvCall D) (descriptor : D) (h : x.error = true) :
    (x.onRecvReport call descriptor).recv.io.issued = x.recv.io.issued := by
  cases call with
  | readDescriptor n =>
      rw [onRecvReport, h]
      exact advanceOperation_keeps (recv_issues_nothing _) rfl
  | requestCopy n remote ptr length =>
      rw [onRecvReport, h]
      exact advanceOperation_keeps (recv_issues_nothing _) rfl
  | writeCompletion n => rfl

/-- A callback of the receiving side only issues more. -/
theorem onRecvReport_more (call : RecvCall D) (descriptor : D) :
    x.recv.io.issued <+: (x.onRecvReport call descriptor).recv.io.issued := by
  cases call with
  | readDescriptor n =>
      exact advanceOperation_keeps (recv_issues_more _ _).live (List.prefix_refl _)
  | requestCopy n remote ptr length =>
      exact advanceOperation_keeps (recv_issues_more _ _).live (List.prefix_refl _)
  | writeCompletion n => exact List.prefix_refl _

/-- A task of a channel: the error stays, what was issued stays, and nothing is issued in
    error. -/
theorem step_issued (task : Task D) :
    x.recv.io.issued <+: (x.step describe task).recv.io.issued
      ∧ (x.error = true → (x.step describe task).error = true)
      ∧ ((x.step describe task).error = true →
        (x.step describe task).recv.io.issued = x.recv.io.issued) := by
  cases task with
  | send ptr length =>
      rw [step, sendFromLoop]
      by_cases herror : x.error = true
      · rw [if_pos herror]
        exact ⟨List.prefix_refl _, id, fun _ => rfl⟩
      · rw [if_neg herror]
        exact ⟨List.prefix_refl _, id, fun _ => rfl⟩
  | recv ptr length =>
      rw [step, recvFromLoop]
      by_cases herror : x.error = true
      · rw [if_pos herror]
        exact ⟨List.prefix_refl _, id, fun _ => rfl⟩
      · rw [if_neg herror]
        refine ⟨?_, id, fun herror' => absurd herror' herror⟩
        exact advanceOperation_keeps (recv_issues_more _ _).live (List.prefix_refl _)
  | close =>
      rw [step, setError_issued, setError_error, Bool.or_true]
      exact ⟨List.prefix_refl _, fun _ => rfl, fun _ => rfl⟩
  | sendReport call failed =>
      rw [step, onSendReport_error, onSendReport_recv, setError_issued, setError_error]
      exact ⟨List.prefix_refl _, fun herror => by rw [herror]; rfl, fun _ => rfl⟩
  | recvReport call failed descriptor =>
      have hmore := @onRecvReport_more _ (x.setError describe failed) _ call descriptor
      rw [setError_issued] at hmore
      refine ⟨hmore, fun herror => ?_, fun herror => ?_⟩
      · rw [step, onRecvReport_error, setError_error, herror]
        rfl
      · rw [step, onRecvReport_error] at herror
        rw [step, onRecvReport_issued call descriptor herror, setError_issued]

end ChannelImpl

-- ── The context ──────────────────────────────────────────────────────────────

/-- `inited` tells whether `initFromLoop` has run. -/
structure Channel (D : Type) where
  impl : ChannelImpl D := {}
  inited : Bool := false
  enrolled : Bool := false
deriving DecidableEq, Repr

/-- Whether a call asks the context for a copy. -/
def RecvCall.isCopy {D : Type} : RecvCall D → Bool
  | .requestCopy _ _ _ _ => true
  | _ => false

/-- A request, with the channel that made it. -/
structure CopyRequest (D : Type) where
  requestId : Nat
  channel : Nat
  call : RecvCall D
deriving DecidableEq, Repr

/-- `pushed` is all that was ever pushed into `requests`.  `running` tells whether the thread is,
    `called` are the requests whose callbacks it invoked, and `deferred` what these callbacks
    left for the loop to do: to tell the channel, with the outcome. -/
structure ContextImpl (D : Type) where
  error : Bool := false
  channels : List (Channel D) := []
  nextRequestId : Nat := 0
  requests : List (Option (CopyRequest D)) := []
  pushed : List (Option (CopyRequest D)) := []
  running : Bool := true
  called : List (CopyRequest D) := []
  deferred : List (CopyRequest D × Bool) := []
deriving DecidableEq, Repr

namespace ContextImpl

variable {D : Type}

/-- Adds a request to the queue, or the mark which ends it. -/
def push (request : Option (CopyRequest D)) (x : ContextImpl D) : ContextImpl D :=
  { x with requests := x.requests ++ [request], pushed := x.pushed ++ [request] }

/-- A request of a channel, with an identifier of its own. -/
def requestCopy (channel : Nat) (call : RecvCall D) (x : ContextImpl D) : ContextImpl D :=
  { x with nextRequestId := x.nextRequestId + 1 }.push
    (some { requestId := x.nextRequestId, channel, call })

/-- A new channel, not yet initialised. -/
def createChannel (x : ContextImpl D) : ContextImpl D :=
  { x with channels := x.channels ++ [{}] }

/-- A channel of a context that is closed is not enrolled. -/
def initFromLoop (channel : Nat) (x : ContextImpl D) : ContextImpl D :=
  { x with
    channels := x.channels.modify channel (fun c =>
      { c with impl := .init x.error, inited := true, enrolled := !x.error }) }

variable [DecidableEq D]

/-- A task of a channel.  The copies that it asks for are requested while it runs, and if it
    gets into error it is unenrolled. -/
def act (describe : Nat → D) (channel : Nat) (task : Task D) (x : ContextImpl D) : ContextImpl D :=
  match x.channels[channel]? with
  | none => x
  | some c =>
      let impl := c.impl.step describe task
      let copies := (impl.recv.io.issued.drop c.impl.recv.io.issued.length).filter RecvCall.isCopy
      copies.foldl (fun x call => x.requestCopy channel call)
        { x with
          channels := x.channels.set channel { c with impl, enrolled := c.enrolled && !impl.error } }

/-- The first error marks the end of the queue. -/
def handleErrorImpl (x : ContextImpl D) : ContextImpl D := x.push none

/-- `channels` are the enrolled channels, in the order of the copy of the map. -/
def handleError (describe : Nat → D) (channels : List Nat) (x : ContextImpl D) : ContextImpl D :=
  (channels.foldl (fun x channel => x.act describe channel .close) x).handleErrorImpl

/-- A call of `close`. -/
def closeFromLoop (describe : Nat → D) (channels : List Nat) (x : ContextImpl D) :
    ContextImpl D :=
  if x.error then x else { x with error := true }.handleError describe channels

/-- A round of the copy thread. -/
def handleCopyRequest (failed : Bool) (x : ContextImpl D) : ContextImpl D :=
  match x.requests with
  | [] => x
  | none :: requests => { x with requests, running := false }
  | some request :: requests =>
      { x with
        requests
        called := x.called ++ [request]
        deferred := x.deferred ++ [(request, failed)] }

/-- What happens in a context: its loop, the copying thread, and the callbacks to come. -/
inductive Step (D : Type) where
  | createChannel
  | initFromLoop (channel : Nat)
  | act (channel : Nat) (task : Task D)
  | copied (request : CopyRequest D) (failed : Bool) (descriptor : D)
  | closeFromLoop (channels : List Nat)
  | handleCopyRequest (failed : Bool)
deriving DecidableEq, Repr

/-- The channels that are enrolled. -/
def Enrolled (x : ContextImpl D) (channel : Nat) : Prop :=
  ∃ c, x.channels[channel]? = some c ∧ c.enrolled = true

/-- A channel is initialised once, before any other of its tasks; the report of a copy comes
    from the thread only.  The thread waits while the queue is empty. -/
def enabled (x : ContextImpl D) : Step D → Prop
  | .createChannel => True
  | .initFromLoop channel => ∃ c, x.channels[channel]? = some c ∧ c.inited = false
  | .act channel task => (∃ c, x.channels[channel]? = some c ∧ c.inited = true
      ∧ c.impl.enabled task)
      ∧ ∀ call failed descriptor, task = .recvReport call failed descriptor → call.isCopy = false
  | .copied request failed _ => (request, failed) ∈ x.deferred
  | .closeFromLoop channels => channels.Nodup ∧ ∀ channel, channel ∈ channels ↔ x.Enrolled channel
  | .handleCopyRequest _ => x.running = true ∧ x.requests ≠ []

/-- One step of a context. -/
def step (describe : Nat → D) (x : ContextImpl D) : Step D → ContextImpl D
  | .createChannel => x.createChannel
  | .initFromLoop channel => x.initFromLoop channel
  | .act channel task => x.act describe channel task
  | .copied request failed descriptor =>
      { x with deferred := x.deferred.erase (request, failed) }.act describe request.channel
        (.recvReport request.call failed descriptor)
  | .closeFromLoop channels => x.closeFromLoop describe channels
  | .handleCopyRequest failed => x.handleCopyRequest failed

/-- The contexts that can be reached from a new one. -/
inductive Reachable (describe : Nat → D) : ContextImpl D → Prop where
  | init : Reachable describe {}
  | step {x : ContextImpl D} (h : Reachable describe x) (s : Step D) (henabled : x.enabled s) :
      Reachable describe (x.step describe s)

-- ── Requests ─────────────────────────────────────────────────────────────────

variable {describe : Nat → D} {x : ContextImpl D}

/-- The requests that were passed to `requestCopy`. -/
def accepted (x : ContextImpl D) : List (CopyRequest D) := x.pushed.filterMap id

/-- Requests of one channel, numbered from `next` on. -/
def numbered (channel : Nat) : Nat → List (RecvCall D) → List (CopyRequest D)
  | _, [] => []
  | next, call :: calls =>
      { requestId := next, channel, call } :: numbered channel (next + 1) calls

omit [DecidableEq D] in
/-- The requests of a list of calls, one after the other. -/
theorem requestCopies_eq (channel : Nat) (calls : List (RecvCall D)) (x : ContextImpl D) :
    calls.foldl (fun x call => x.requestCopy channel call) x = { x with
      nextRequestId := x.nextRequestId + calls.length
      requests := x.requests ++ (numbered channel x.nextRequestId calls).map some
      pushed := x.pushed ++ (numbered channel x.nextRequestId calls).map some } := by
  induction calls generalizing x with
  | nil =>
      rw [numbered, List.map_nil, List.append_nil, List.append_nil]
      rfl
  | cons call calls ih =>
      rw [List.foldl_cons, ih, numbered, List.map_cons, List.append_cons x.requests,
        List.append_cons x.pushed, List.length_cons, Nat.add_comm calls.length 1, ← Nat.add_assoc]
      rfl

omit [DecidableEq D] in
/-- The requests are numbered in order. -/
theorem numbered_ids (channel next : Nat) (calls : List (RecvCall D)) :
    (numbered channel next calls).map CopyRequest.requestId = List.range' next calls.length := by
  induction calls generalizing next with
  | nil => rfl
  | cons call calls ih => exact congrArg (next :: ·) (ih (next + 1))

omit [DecidableEq D] in
/-- The requests are about their calls. -/
theorem numbered_calls (channel next : Nat) (calls : List (RecvCall D)) :
    (numbered channel next calls).map CopyRequest.call = calls := by
  induction calls generalizing next with
  | nil => rfl
  | cons call calls ih => exact congrArg (call :: ·) (ih (next + 1))

omit [DecidableEq D] in
/-- The requests are those of one channel. -/
theorem numbered_channel {channel next : Nat} {calls : List (RecvCall D)}
    {request : CopyRequest D} (h : request ∈ numbered channel next calls) :
    request.channel = channel := by
  induction calls generalizing next with
  | nil => cases h
  | cons call calls ih =>
      rcases List.mem_cons.mp h with rfl | h
      · rfl
      · exact ih h

omit [DecidableEq D] in
/-- A queue without its mark. -/
theorem filterMap_id_some (l : List (CopyRequest D)) : (l.map some).filterMap id = l := by
  rw [List.filterMap_map]
  exact List.filterMap_some

/-- The copies that a task of a channel asks for. -/
def copies (describe : Nat → D) (c : Channel D) (task : Task D) : List (RecvCall D) :=
  ((c.impl.step describe task).recv.io.issued.drop c.impl.recv.io.issued.length).filter
    RecvCall.isCopy

/-- The channel after a task. -/
def acted (describe : Nat → D) (c : Channel D) (task : Task D) : Channel D :=
  { c with
    impl := c.impl.step describe task
    enrolled := c.enrolled && !(c.impl.step describe task).error }

/-- What a task does to its channel and to the queue. -/
theorem act_eq {channel : Nat} {c : Channel D} (task : Task D)
    (hc : x.channels[channel]? = some c) :
    x.act describe channel task = { x with
      channels := x.channels.set channel (acted describe c task)
      nextRequestId := x.nextRequestId + (copies describe c task).length
      requests := x.requests
        ++ (numbered channel x.nextRequestId (copies describe c task)).map some
      pushed := x.pushed
        ++ (numbered channel x.nextRequestId (copies describe c task)).map some } := by
  rw [act, hc]
  exact requestCopies_eq ..

/-- A channel in error asks for no copy. -/
theorem copies_error {c : Channel D} {task : Task D}
    (h : (c.impl.step describe task).error = true) : copies describe c task = [] := by
  rw [copies, (ChannelImpl.step_issued task).2.2 h, List.drop_length]
  rfl

/-- A channel has issued what it had, and the copies that it asks for. -/
theorem issued_copies (c : Channel D) (task : Task D) :
    (c.impl.step describe task).recv.io.issued.filter RecvCall.isCopy
      = c.impl.recv.io.issued.filter RecvCall.isCopy ++ copies describe c task := by
  obtain ⟨rest, hrest⟩ := (@ChannelImpl.step_issued _ describe c.impl _ task).1
  rw [copies, ← hrest, List.drop_left, List.filter_append]

-- ── The invariant ────────────────────────────────────────────────────────────

/-- `terminated` tells whether the terminator was pushed. -/
structure QueueInv (terminated : Bool) (x : ContextImpl D) : Prop where
  pushed : x.pushed = x.accepted.map some ++ if terminated then [none] else []
  ids : x.accepted.map CopyRequest.requestId = List.range x.nextRequestId
  queue : x.pushed = x.called.map some ++ (if x.running then [] else [none]) ++ x.requests
  deferred : ∀ d ∈ x.deferred, d.1 ∈ x.called
  enrolled : ∀ (channel : Nat) (c : Channel D), x.channels[channel]? = some c →
    c.enrolled = (c.inited && !c.impl.error)
  failed : terminated = true → ∀ (channel : Nat) (c : Channel D),
    x.channels[channel]? = some c → c.inited = true → c.impl.error = true
  fresh : ∀ (channel : Nat) (c : Channel D),
    x.channels[channel]? = some c → c.inited = false → c.impl = {}
  asked : ∀ (channel : Nat) (c : Channel D), x.channels[channel]? = some c →
    (x.accepted.filter (fun request => request.channel = channel)).map CopyRequest.call
      = c.impl.recv.io.issued.filter RecvCall.isCopy
  known : ∀ request ∈ x.accepted, request.channel < x.channels.length

omit [DecidableEq D] in
/-- A new context has an empty queue. -/
theorem queueInv_init : QueueInv false ({} : ContextImpl D) where
  pushed := rfl
  ids := rfl
  queue := rfl
  deferred := nofun
  enrolled := nofun
  failed := nofun
  fresh := nofun
  asked := nofun
  known := nofun

/-- A task of a channel: either the channel is in error and asks for nothing, or the terminator
    was not pushed. -/
theorem queueInv_act {terminated : Bool} (h : QueueInv terminated x) {channel : Nat}
    {c : Channel D} (task : Task D) (hc : x.channels[channel]? = some c)
    (hinited : c.inited = true) : QueueInv terminated (x.act describe channel task) := by
  have hlt : channel < x.channels.length := (List.getElem?_eq_some_iff.mp hc).1
  have hset : ∀ (k : Nat) (c' : Channel D),
      (x.channels.set channel (acted describe c task))[k]? = some c' →
      (k = channel ∧ c' = acted describe c task) ∨ (k ≠ channel ∧ x.channels[k]? = some c') := by
    intro k c' hk
    by_cases hkc : k = channel
    · rw [hkc, List.getElem?_set_self hlt] at hk
      exact .inl ⟨hkc, (Option.some.inj hk).symm⟩
    · rw [List.getElem?_set_ne (fun heq => hkc heq.symm)] at hk
      exact .inr ⟨hkc, hk⟩
  obtain ⟨-, hstays, -⟩ := @ChannelImpl.step_issued _ describe c.impl _ task
  have hcopies : terminated = true → copies describe c task = [] :=
    fun hterm => copies_error (hstays (h.failed hterm channel c hc hinited))
  have haccepted : (x.pushed ++ (numbered channel x.nextRequestId (copies describe c task)).map
      some).filterMap id = x.accepted ++ numbered channel x.nextRequestId (copies describe c task) := by
    rw [List.filterMap_append, filterMap_id_some]
    rfl
  rw [act_eq task hc]
  constructor
  case pushed =>
    show x.pushed ++ _ = (List.filterMap id (x.pushed ++ _)).map some ++ _
    rw [haccepted, List.map_append]
    cases terminated with
    | false => rw [h.pushed]; simp only [Bool.false_eq_true, if_false, List.append_nil]
    | true =>
        rw [hcopies rfl, numbered, List.map_nil, List.append_nil, List.append_nil]
        exact h.pushed
  case ids =>
    show (List.filterMap id (x.pushed ++ _)).map _ = _
    rw [haccepted, List.map_append, h.ids, numbered_ids, List.range_eq_range', List.range_eq_range',
      ← List.range'_append_1, Nat.zero_add]
  case queue =>
    show x.pushed ++ _ = _ ++ (x.requests ++ _)
    rw [← List.append_assoc, ← h.queue]
  case deferred => exact h.deferred
  case enrolled =>
    intro k c' hk
    rcases hset k c' hk with ⟨-, rfl⟩ | ⟨-, hk⟩
    · show (c.enrolled && !(c.impl.step describe task).error)
        = (c.inited && !(c.impl.step describe task).error)
      rw [h.enrolled channel c hc]
      cases herror : c.impl.error with
      | false => rw [Bool.not_false, Bool.and_true]
      | true =>
          rw [hstays herror, Bool.not_true, Bool.and_false, Bool.and_false]
    · exact h.enrolled k c' hk
  case failed =>
    intro hterm k c' hk hinited'
    rcases hset k c' hk with ⟨-, rfl⟩ | ⟨-, hk⟩
    · exact hstays (h.failed hterm channel c hc hinited)
    · exact h.failed hterm k c' hk hinited'
  case fresh =>
    intro k c' hk hinited'
    rcases hset k c' hk with ⟨-, rfl⟩ | ⟨-, hk⟩
    · rw [show (acted describe c task).inited = true from hinited] at hinited'
      cases hinited'
    · exact h.fresh k c' hk hinited'
  case asked =>
    intro k c' hk
    show ((List.filterMap id (x.pushed ++ _)).filter _).map _ = _
    rw [haccepted, List.filter_append, List.map_append]
    rcases hset k c' hk with ⟨rfl, rfl⟩ | ⟨hne, hk⟩
    · have hall : (numbered k x.nextRequestId (copies describe c task)).filter
          (fun request => request.channel = k) = numbered k x.nextRequestId (copies describe c task) :=
        List.filter_eq_self.mpr (fun request hrequest => decide_eq_true (numbered_channel hrequest))
      rw [h.asked k c hc, hall, numbered_calls]
      exact (issued_copies c task).symm
    · have hnone : (numbered channel x.nextRequestId (copies describe c task)).filter
          (fun request => request.channel = k) = [] := by
        refine List.filter_eq_nil_iff.mpr (fun request hrequest heq => hne ?_)
        exact (of_decide_eq_true heq).symm.trans (numbered_channel hrequest)
      rw [h.asked k c' hk, hnone]
      exact List.append_nil _
  case known =>
    show ∀ request ∈ List.filterMap id (x.pushed ++ _), request.channel < (x.channels.set ..).length
    rw [haccepted, List.length_set]
    intro request hrequest
    rcases List.mem_append.mp hrequest with hrequest | hrequest
    · exact h.known request hrequest
    · exact (numbered_channel hrequest) ▸ hlt

/-- The task of a channel sets no error of the context. -/
theorem act_error (channel : Nat) (task : Task D) :
    (x.act describe channel task).error = x.error := by
  cases hc : x.channels[channel]? with
  | none => rw [act, hc]
  | some c => rw [act_eq task hc]

omit [DecidableEq D] in
/-- A new channel keeps the invariant of the queue. -/
theorem queueInv_createChannel {terminated : Bool} (h : QueueInv terminated x) :
    QueueInv terminated x.createChannel := by
  have hnew : ∀ (k : Nat) (c : Channel D), x.createChannel.channels[k]? = some c →
      x.channels[k]? = some c ∨ (k = x.channels.length ∧ c = {}) := by
    intro k c hk
    change (x.channels ++ [_])[k]? = some c at hk
    rcases Nat.lt_or_ge k x.channels.length with hlt | hge
    · rw [List.getElem?_append_left hlt] at hk
      exact .inl hk
    · rw [List.getElem?_append_right hge, List.getElem?_singleton] at hk
      split at hk
      case isTrue hzero => exact .inr ⟨by omega, (Option.some.inj hk).symm⟩
      case isFalse => cases hk
  constructor
  case pushed => exact h.pushed
  case ids => exact h.ids
  case queue => exact h.queue
  case deferred => exact h.deferred
  case enrolled =>
    intro k c hk
    rcases hnew k c hk with hk | ⟨-, rfl⟩
    · exact h.enrolled k c hk
    · rfl
  case failed =>
    intro hterm k c hk hinited
    rcases hnew k c hk with hk | ⟨-, rfl⟩
    · exact h.failed hterm k c hk hinited
    · cases hinited
  case fresh =>
    intro k c hk hinited
    rcases hnew k c hk with hk | ⟨-, rfl⟩
    · exact h.fresh k c hk hinited
    · rfl
  case asked =>
    intro k c hk
    rcases hnew k c hk with hk | ⟨rfl, rfl⟩
    · exact h.asked k c hk
    · -- nobody can have asked for a channel that did not exist
      have hnone : x.accepted.filter (fun request => request.channel = x.channels.length) = [] := by
        refine List.filter_eq_nil_iff.mpr (fun request hrequest heq => ?_)
        exact Nat.ne_of_lt (h.known request hrequest) (of_decide_eq_true heq)
      show (x.accepted.filter _).map _ = []
      rw [hnone]
      rfl
  case known =>
    intro request hrequest
    show request.channel < (x.channels ++ [_]).length
    rw [List.length_append]
    exact Nat.lt_add_right _ (h.known request hrequest)

omit [DecidableEq D] in
/-- The initialisation of a channel keeps the invariant of the queue. -/
theorem queueInv_initFromLoop (h : QueueInv x.error x) {channel : Nat} {c : Channel D}
    (hc : x.channels[channel]? = some c) (hinited : c.inited = false) :
    QueueInv x.error (x.initFromLoop channel) := by
  have hset : ∀ (k : Nat) (c' : Channel D), (x.initFromLoop channel).channels[k]? = some c' →
      (k = channel ∧ c' = { c with impl := .init x.error, inited := true, enrolled := !x.error })
      ∨ x.channels[k]? = some c' := by
    intro k c' hk
    change (x.channels.modify channel _)[k]? = some c' at hk
    rw [List.getElem?_modify] at hk
    by_cases hkc : channel = k
    · subst hkc
      rw [hc, Option.map_eq_map, Option.map_some, if_pos rfl] at hk
      exact .inl ⟨rfl, (Option.some.inj hk).symm⟩
    · simp only [if_neg hkc, Option.map_eq_map, Option.map_id'] at hk
      exact .inr hk
  constructor
  case pushed => exact h.pushed
  case ids => exact h.ids
  case queue => exact h.queue
  case deferred => exact h.deferred
  case enrolled =>
    intro k c' hk
    rcases hset k c' hk with ⟨-, rfl⟩ | hk
    · rfl
    · exact h.enrolled k c' hk
  case failed =>
    intro hterm k c' hk hinited'
    rcases hset k c' hk with ⟨-, rfl⟩ | hk
    · exact hterm
    · exact h.failed hterm k c' hk hinited'
  case fresh =>
    intro k c' hk hinited'
    rcases hset k c' hk with ⟨-, rfl⟩ | hk
    · cases hinited'
    · exact h.fresh k c' hk hinited'
  case asked =>
    intro k c' hk
    rcases hset k c' hk with ⟨rfl, rfl⟩ | hk
    · have hasked := h.asked k c hc
      rw [h.fresh k c hc hinited] at hasked
      exact hasked
    · exact h.asked k c' hk
  case known =>
    intro request hrequest
    show request.channel < (x.channels.modify ..).length
    rw [List.length_modify]
    exact h.known request hrequest

/-- Closing a channel puts it in error, and no other one. -/
theorem act_close {channel : Nat} (k : Nat) (c' : Channel D)
    (hk : (x.act describe channel .close).channels[k]? = some c') :
    ∃ c, x.channels[k]? = some c ∧ c'.inited = c.inited
      ∧ (c.impl.error = true ∨ k = channel → c'.impl.error = true) := by
  cases hc : x.channels[channel]? with
  | none =>
      rw [act, hc] at hk
      refine ⟨c', hk, rfl, fun hor => ?_⟩
      rcases hor with herror | rfl
      · exact herror
      · rw [hc] at hk
        cases hk
  | some c =>
      rw [act_eq .close hc] at hk
      change (x.channels.set channel _)[k]? = some c' at hk
      by_cases hkc : k = channel
      · subst hkc
        rw [List.getElem?_set_self (List.getElem?_eq_some_iff.mp hc).1] at hk
        rw [← Option.some.inj hk]
        refine ⟨c, hc, rfl, fun _ => ?_⟩
        show (c.impl.setError describe true).error = true
        rw [ChannelImpl.setError_error, Bool.or_true]
      · rw [List.getElem?_set_ne (fun heq => hkc heq.symm)] at hk
        exact ⟨c', hk, rfl, fun hor => hor.resolve_right hkc⟩

/-- Closing channels one after the other. -/
theorem queueInv_closeChannels (channels : List Nat) {x : ContextImpl D} (h : QueueInv false x)
    (hinited : ∀ channel ∈ channels, ∃ c, x.channels[channel]? = some c ∧ c.inited = true) :
    QueueInv false (channels.foldl (fun x channel => x.act describe channel .close) x)
      ∧ (channels.foldl (fun x channel => x.act describe channel .close) x).error = x.error
      ∧ ∀ (k : Nat) (c' : Channel D),
        (channels.foldl (fun x channel => x.act describe channel .close) x).channels[k]? = some c' →
        ∃ c, x.channels[k]? = some c ∧ c'.inited = c.inited
          ∧ (c.impl.error = true ∨ k ∈ channels → c'.impl.error = true) := by
  induction channels generalizing x with
  | nil =>
      refine ⟨h, rfl, fun k c' hk => ⟨c', hk, rfl, fun hor => ?_⟩⟩
      rcases hor with herror | hmem
      · exact herror
      · cases hmem
  | cons channel rest ih =>
      obtain ⟨c, hc, hcinited⟩ := hinited channel (List.mem_cons_self ..)
      have hstep := @queueInv_act _ _ describe _ _ h _ _ .close hc hcinited
      have hrest : ∀ k ∈ rest, ∃ c', (x.act describe channel .close).channels[k]? = some c'
          ∧ c'.inited = true := by
        intro k hk
        obtain ⟨ck, hck, hckinited⟩ := hinited k (List.mem_cons_of_mem _ hk)
        have hlt : k < (x.act describe channel .close).channels.length := by
          rw [act_eq .close hc]
          show k < (x.channels.set ..).length
          rw [List.length_set]
          exact (List.getElem?_eq_some_iff.mp hck).1
        obtain ⟨c₀, hc₀, hsame, -⟩ := act_close k _ (List.getElem?_eq_getElem hlt)
        rw [hck] at hc₀
        exact ⟨_, List.getElem?_eq_getElem hlt, hsame.trans (Option.some.inj hc₀ ▸ hckinited)⟩
      obtain ⟨hinv, herror, hall⟩ := ih hstep hrest
      refine ⟨hinv, herror.trans (act_error ..), fun k c' hk => ?_⟩
      obtain ⟨c₁, hc₁, hsame₁, himp₁⟩ := hall k c' hk
      obtain ⟨c₀, hc₀, hsame₀, himp₀⟩ := act_close k c₁ hc₁
      refine ⟨c₀, hc₀, hsame₁.trans hsame₀, fun hor => ?_⟩
      rcases hor with herror₀ | hmem
      · exact himp₁ (.inl (himp₀ (.inl herror₀)))
      · rcases List.mem_cons.mp hmem with rfl | hmem
        · exact himp₁ (.inl (himp₀ (.inr rfl)))
        · exact himp₁ (.inr hmem)

omit [DecidableEq D] in
/-- When all channels are in error, the terminator may be pushed. -/
theorem queueInv_terminate (h : QueueInv false x)
    (hfailed : ∀ (k : Nat) (c : Channel D), x.channels[k]? = some c → c.inited = true →
      c.impl.error = true) : QueueInv true x.handleErrorImpl := by
  have haccepted : (x.pushed ++ [none]).filterMap id = x.accepted := by
    rw [List.filterMap_append]
    exact List.append_nil _
  constructor
  case pushed =>
    show x.pushed ++ [none] = (List.filterMap id (x.pushed ++ [none])).map some ++ [none]
    have hpushed := h.pushed
    rw [haccepted]
    exact congrArg (· ++ [none]) (hpushed.trans (List.append_nil _))
  case ids =>
    show (List.filterMap id (x.pushed ++ [none])).map _ = _
    rw [haccepted]
    exact h.ids
  case queue =>
    have hqueue := congrArg (· ++ [none]) h.queue
    exact hqueue.trans (List.append_assoc ..)
  case deferred => exact h.deferred
  case enrolled => exact h.enrolled
  case failed => exact fun _ => hfailed
  case fresh => exact h.fresh
  case asked =>
    show ∀ (k : Nat) (c : Channel D), x.channels[k]? = some c →
      ((List.filterMap id (x.pushed ++ [none])).filter _).map _ = _
    rw [haccepted]
    exact h.asked
  case known =>
    show ∀ request ∈ List.filterMap id (x.pushed ++ [none]), _
    rw [haccepted]
    exact h.known

/-- A call of `close` keeps the invariant of the queue, which it ends. -/
theorem queueInv_closeFromLoop (h : QueueInv x.error x) {channels : List Nat}
    (hchannels : ∀ channel, channel ∈ channels ↔ x.Enrolled channel) :
    QueueInv (x.closeFromLoop describe channels).error (x.closeFromLoop describe channels) := by
  rw [closeFromLoop]
  by_cases herror : x.error = true
  · rw [if_pos herror]
    exact h
  · rw [if_neg herror]
    rw [Bool.eq_false_iff.mpr herror] at h
    have hmarked : QueueInv false { x with error := true } :=
      ⟨h.pushed, h.ids, h.queue, h.deferred, h.enrolled, h.failed, h.fresh, h.asked, h.known⟩
    have hinited : ∀ channel ∈ channels, ∃ c, x.channels[channel]? = some c ∧ c.inited = true := by
      intro channel hmem
      obtain ⟨c, hc, henrolled⟩ := (hchannels channel).mp hmem
      rw [h.enrolled channel c hc] at henrolled
      exact ⟨c, hc, (Bool.and_eq_true_iff.mp henrolled).1⟩
    obtain ⟨hinv, hmark, hall⟩ := @queueInv_closeChannels _ _ describe channels _ hmarked hinited
    rw [handleError, show ∀ y : ContextImpl D, y.handleErrorImpl.error = y.error from fun _ => rfl,
      hmark]
    refine queueInv_terminate hinv (fun k c' hk hinited' => ?_)
    obtain ⟨c, hc, hsame, himp⟩ := hall k c' hk
    cases hcerror : c.impl.error with
    | true => exact himp (.inl hcerror)
    | false =>
        -- it was enrolled, so it is one of those that were closed
        refine himp (.inr ((hchannels k).mpr ⟨c, hc, ?_⟩))
        rw [h.enrolled k c hc, ← hsame, hinited', hcerror]
        rfl

omit [DecidableEq D] in
/-- A copy that the thread made keeps the invariant of the queue. -/
theorem queueInv_handleCopyRequest {terminated : Bool} (h : QueueInv terminated x) (failed : Bool)
    (hrunning : x.running = true) : QueueInv terminated (x.handleCopyRequest failed) := by
  have hqueue := h.queue
  rw [hrunning, if_pos rfl, List.append_nil] at hqueue
  rw [handleCopyRequest]
  cases hrequests : x.requests with
  | nil => exact h
  | cons front requests =>
      rw [hrequests] at hqueue
      cases front with
      | none =>
          refine ⟨h.pushed, h.ids, ?_, h.deferred, h.enrolled, h.failed, h.fresh, h.asked, h.known⟩
          show x.pushed = _ ++ [none] ++ requests
          rw [hqueue, List.append_assoc]
          rfl
      | some request =>
          refine ⟨h.pushed, h.ids, ?_, ?_, h.enrolled, h.failed, h.fresh, h.asked, h.known⟩
          · show x.pushed = (x.called ++ [request]).map some ++ (if x.running then [] else [none])
              ++ requests
            rw [hqueue, hrunning, if_pos rfl, List.append_nil, List.map_append, List.append_assoc]
            rfl
          · intro d hd
            rcases List.mem_append.mp hd with hd | hd
            · exact List.mem_append_left _ (h.deferred d hd)
            · rw [List.mem_singleton.mp hd]
              exact List.mem_append_right _ (List.mem_singleton_self _)

omit [DecidableEq D] in
/-- What the thread was asked comes from a channel that was initialised. -/
theorem QueueInv.called_inited {terminated : Bool} (h : QueueInv terminated x)
    {request : CopyRequest D} (hrequest : request ∈ x.called) :
    ∃ c, x.channels[request.channel]? = some c ∧ c.inited = true := by
  have haccepted : request ∈ x.accepted := by
    have hmem : some request ∈ x.pushed := by
      rw [h.queue]
      exact List.mem_append_left _ (List.mem_append_left _ (List.mem_map_of_mem hrequest))
    exact List.mem_filterMap.mpr ⟨_, hmem, rfl⟩
  have hlt := h.known request haccepted
  refine ⟨_, List.getElem?_eq_getElem hlt, ?_⟩
  have hasked := h.asked request.channel _ (List.getElem?_eq_getElem hlt)
  cases hinited : (x.channels[request.channel]).inited with
  | true => rfl
  | false =>
      rw [h.fresh _ _ (List.getElem?_eq_getElem hlt) hinited] at hasked
      have hmem : request ∈ x.accepted.filter (fun r => r.channel = request.channel) :=
        List.mem_filter.mpr ⟨haccepted, decide_eq_true rfl⟩
      rw [List.map_eq_nil_iff.mp hasked] at hmem
      cases hmem

/-- What a step preserves. -/
theorem queueInv_step (h : QueueInv x.error x) (s : Step D) (henabled : x.enabled s) :
    QueueInv (x.step describe s).error (x.step describe s) := by
  cases s with
  | createChannel => exact queueInv_createChannel h
  | initFromLoop channel =>
      obtain ⟨c, hc, hinited⟩ := henabled
      exact queueInv_initFromLoop h hc hinited
  | act channel task =>
      obtain ⟨⟨c, hc, hinited, -⟩, -⟩ := henabled
      rw [step, act_error]
      exact queueInv_act h task hc hinited
  | copied request failed descriptor =>
      have hforget : QueueInv x.error { x with deferred := x.deferred.erase (request, failed) } :=
        ⟨h.pushed, h.ids, h.queue, fun d hd => h.deferred d (List.mem_of_mem_erase hd), h.enrolled,
          h.failed, h.fresh, h.asked, h.known⟩
      obtain ⟨c, hc, hinited⟩ := h.called_inited (h.deferred _ henabled)
      rw [step, act_error]
      exact queueInv_act hforget _ hc hinited
  | closeFromLoop channels => exact queueInv_closeFromLoop h henabled.2
  | handleCopyRequest failed =>
      have herror : (x.handleCopyRequest failed).error = x.error := by
        rw [handleCopyRequest]
        split <;> rfl
      rw [step, herror]
      exact queueInv_handleCopyRequest h failed henabled.1

/-- What a run preserves. -/
theorem queueInv_reachable (h : Reachable describe x) : QueueInv x.error x := by
  induction h with
  | init => exact queueInv_init
  | step _ s henabled ih => exact queueInv_step ih s henabled

-- ── Shutdown ─────────────────────────────────────────────────────────────────

/-- A round of the copy thread. -/
def ThreadStep (x x' : ContextImpl D) : Prop :=
  ∃ failed, x.enabled (.handleCopyRequest failed) ∧ x' = x.handleCopyRequest failed

/-- The queue of the copy thread. -/
structure QueueShutdown (x : ContextImpl D) : Prop where
  /-- The terminator is pushed once, when the context closes, and nothing behind it. -/
  terminator : x.pushed = x.accepted.map some ++ if x.error then [none] else []
  /-- What channels ask for is accepted, each request under a number of its own. -/
  asked : ∀ (channel : Nat) (c : Channel D), x.channels[channel]? = some c →
    (x.accepted.filter (fun request => request.channel = channel)).map CopyRequest.call
      = c.impl.recv.io.issued.filter RecvCall.isCopy
  ids : x.accepted.map CopyRequest.requestId = List.range x.nextRequestId
  /-- The callbacks are invoked in the order of the requests, each once; the other requests are
      still in the queue, and the thread gets to all of them. -/
  order : x.accepted = x.called ++ x.requests.filterMap id
  ended : x.running = false → x.called = x.accepted
  completes : ∃ x', Relation.ReflTransGen ThreadStep x x' ∧ x'.accepted = x.accepted
    ∧ x'.called = x.accepted ∧ (x.error = true → x'.running = false)

omit [DecidableEq D] in
/-- The requests are called back in the order in which they were accepted. -/
theorem QueueInv.order {terminated : Bool} (h : QueueInv terminated x) :
    x.accepted = x.called ++ x.requests.filterMap id := by
  have hqueue := congrArg (List.filterMap id) h.queue
  rw [List.filterMap_append, List.filterMap_append, filterMap_id_some] at hqueue
  refine hqueue.trans (congrArg (· ++ _) ?_)
  cases x.running <;> exact List.append_nil _

omit [DecidableEq D] in
/-- The first terminator of a queue. -/
theorem first_none (a b : List (CopyRequest D)) (s t : List (Option (CopyRequest D)))
    (h : a.map some ++ none :: s = b.map some ++ none :: t) : a = b := by
  induction a generalizing b with
  | nil =>
      cases b with
      | nil => rfl
      | cons r b => cases (List.cons.inj h).1
  | cons r a ih =>
      cases b with
      | nil => cases (List.cons.inj h).1
      | cons r' b =>
          obtain ⟨hr, hrest⟩ := List.cons.inj h
          rw [Option.some.inj hr, ih b hrest]

omit [DecidableEq D] in
/-- Requests are not the mark. -/
theorem none_notMem_map_some (a : List (CopyRequest D)) : none ∉ a.map some := by
  intro hmem
  obtain ⟨r, -, hr⟩ := List.mem_map.mp hmem
  cases hr

omit [DecidableEq D] in
/-- Once the thread has ended, there is nothing left for it to do. -/
theorem QueueInv.ended {terminated : Bool} (h : QueueInv terminated x) (hended : x.running = false) :
    x.called = x.accepted := by
  have hqueue := h.queue
  rw [h.pushed, hended, if_neg Bool.false_ne_true, List.append_assoc] at hqueue
  cases terminated with
  | true => exact (first_none _ _ _ _ hqueue).symm
  | false =>
      refine absurd ?_ (none_notMem_map_some x.accepted)
      rw [if_neg Bool.false_ne_true, List.append_nil] at hqueue
      rw [hqueue]
      exact List.mem_append_right _ (List.mem_cons_self ..)

omit [DecidableEq D] in
/-- The thread does not wait for ever: when its queue is empty the terminator is still to come. -/
theorem QueueInv.waiting {terminated : Bool} (h : QueueInv terminated x)
    (hrunning : x.running = true) (hrequests : x.requests = []) : terminated = false := by
  have hqueue := h.queue
  rw [h.pushed, hrunning, if_pos rfl, hrequests, List.append_nil, List.append_nil] at hqueue
  cases terminated with
  | false => rfl
  | true =>
      refine absurd ?_ (none_notMem_map_some x.called)
      rw [← hqueue]
      exact List.mem_append_right _ (List.mem_singleton_self _)

omit [DecidableEq D] in
/-- The thread gets to the end of its queue. -/
theorem QueueInv.completes {terminated : Bool} (n : Nat) {x : ContextImpl D}
    (h : QueueInv terminated x) (hn : x.requests.length = n) :
    ∃ x', Relation.ReflTransGen ThreadStep x x' ∧ x'.accepted = x.accepted
      ∧ x'.called = x.accepted ∧ (terminated = true → x'.running = false) := by
  induction n generalizing x with
  | zero =>
      have hrequests := List.length_eq_zero_iff.mp hn
      cases hrunning : x.running with
      | false => exact ⟨x, .refl, rfl, h.ended hrunning, fun _ => hrunning⟩
      | true =>
          refine ⟨x, .refl, rfl, ?_, fun hterm => ?_⟩
          · have horder := h.order
            rw [hrequests] at horder
            exact (horder.trans (List.append_nil _)).symm
          · rw [h.waiting hrunning hrequests] at hterm
            cases hterm
  | succ n ih =>
      cases hrunning : x.running with
      | false => exact ⟨x, .refl, rfl, h.ended hrunning, fun _ => hrunning⟩
      | true =>
          have hne : x.requests ≠ [] := by
            intro hnil
            rw [hnil] at hn
            cases hn
          have hstep : ThreadStep x (x.handleCopyRequest false) := ⟨false, ⟨hrunning, hne⟩, rfl⟩
          have hlength : (x.handleCopyRequest false).requests.length = n := by
            rw [handleCopyRequest]
            cases hrequests : x.requests with
            | nil => exact absurd hrequests hne
            | cons front rest =>
                rw [hrequests] at hn
                cases front <;> exact Nat.succ.inj hn
          have hsame : (x.handleCopyRequest false).accepted = x.accepted := by
            rw [handleCopyRequest]
            split <;> rfl
          obtain ⟨x', hrun, hacc, hcalled, hended⟩ :=
            ih (queueInv_handleCopyRequest h false hrunning) hlength
          exact ⟨x', .head hstep hrun, hacc.trans hsame, hcalled.trans hsame, hended⟩

/-- **The copy queue shuts down in order.**  With whatever descriptors, so in particular for
    those of cma. -/
theorem queue_shutdown (h : Reachable describe x) : QueueShutdown x := by
  have hinv := queueInv_reachable h
  exact ⟨hinv.pushed, hinv.asked, hinv.ids, hinv.order, hinv.ended, hinv.completes _ rfl⟩

/-- A channel has asked for a copy when the context is closed, and another one is initialised
    after that. -/
theorem queue_shutdown_late : ∃ x : ContextImpl Cma.Descriptor,
    Reachable (Cma.describe 7) x ∧ QueueShutdown x ∧ x.running = false
      ∧ x.pushed = [some ⟨0, 0, .requestCopy 0 (some ⟨9, 20⟩) 10 4⟩, none]
      ∧ x.called.map CopyRequest.requestId = [0] := by
  have hcopying : Reachable (Cma.describe 7) _ := .step (.step (.step (.step .init .createChannel
    trivial) (.initFromLoop 0) ⟨_, rfl, rfl⟩)
    (.act 0 (.recv 10 4)) ⟨⟨_, rfl, rfl, trivial⟩, nofun⟩)
    (.act 0 (.recvReport (.readDescriptor 0) false { pid := 9, ptr := 20 }))
    ⟨⟨_, rfl, rfl, List.mem_cons_self ..⟩, by rintro _ _ _ ⟨⟩; rfl⟩
  have hcreated : Reachable (Cma.describe 7) _ := .step hcopying .createChannel trivial
  have hclosed : Reachable (Cma.describe 7) _ := .step hcreated (.closeFromLoop [0]) (by
    refine ⟨List.nodup_singleton _, fun channel => ?_⟩
    rcases channel with _ | _ | channel
    · exact ⟨fun _ => ⟨_, rfl, rfl⟩, fun _ => List.mem_cons_self ..⟩
    · refine ⟨fun hmem => ?_, ?_⟩
      · cases List.mem_singleton.mp hmem
      · rintro ⟨c, ⟨⟩, ⟨⟩⟩
    · refine ⟨fun hmem => ?_, ?_⟩
      · cases List.mem_singleton.mp hmem
      · rintro ⟨c, ⟨⟩, -⟩)
  have hlate : Reachable (Cma.describe 7) _ := .step (.step hclosed (.initFromLoop 1) ⟨_, rfl, rfl⟩)
    (.act 1 (.recv 30 4)) ⟨⟨_, rfl, rfl, trivial⟩, nofun⟩
  have hended : Reachable (Cma.describe 7) _ := .step (.step hlate (.handleCopyRequest false)
    ⟨rfl, List.cons_ne_nil _ _⟩) (.handleCopyRequest false) ⟨rfl, List.cons_ne_nil _ _⟩
  exact ⟨_, hended, queue_shutdown hended, rfl, rfl, rfl⟩

end ContextImpl

end TpCopy
