import Mathlib.Tactic.Common
import Tensorpipe.OperationSideProofs

/-! # The cma and xth channels — the receiver copies

    The sender writes a descriptor of its memory and waits for a completion; the receiver
    reads the descriptor, has the copy thread of its context copy the memory, and writes the
    completion, an empty frame.  The two channels differ in what a descriptor says and in how
    the thread copies: `cma` names a process and an address of it and asks the kernel, `xth`
    names an address of its own process.  Both are instances of one definition here, with
    the descriptors as a parameter.

    Lengths of zero go straight to finished, wherever they stand in the queue. -/

namespace TpCopy

open TpStateMachine

-- ── Send operations ──────────────────────────────────────────────────────────

/-- The states of a send operation, in the order in which it goes through them. -/
inductive SendState where
  | uninitialized
  | readingCompletion
  | finished
deriving DecidableEq, Repr

/-- The value of the enumerator, by which states are compared. -/
def SendState.rank : SendState → Nat
  | uninitialized => 0
  | readingCompletion => 1
  | finished => 2

instance : LE SendState := ⟨fun a b => a.rank ≤ b.rank⟩
instance (a b : SendState) : Decidable (a ≤ b) := inferInstanceAs (Decidable (a.rank ≤ b.rank))

/-- A send of one tensor, from the call until the completion of the peer was read. -/
structure SendOperation where
  sequenceNumber : Nat
  state : SendState := .uninitialized
  ptr : Nat
  length : Nat
  doneReadingCompletion : Bool := false
deriving DecidableEq, Repr

instance : Operation SendOperation SendState where
  sequenceNumber := SendOperation.sequenceNumber
  state := SendOperation.state
  withState op st := { op with state := st }
  finished := .finished
  state_withState _ _ := rfl
  sequenceNumber_withState _ _ := rfl

/-- The calls of the sending half; `D` is the type of descriptors. -/
inductive SendCall (D : Type) where
  | writeDescriptor (n : Nat) (descriptor : D)
  | readCompletion (n : Nat)
deriving DecidableEq, Repr

-- ── Receive operations ───────────────────────────────────────────────────────

/-- The states of a receive operation, in the order in which it goes through them. -/
inductive RecvState where
  | uninitialized
  | readingDescriptor
  | copying
  | finished
deriving DecidableEq, Repr

/-- The place of a state in the order of the declaration, which is what the code compares. -/
def RecvState.rank : RecvState → Nat
  | uninitialized => 0
  | readingDescriptor => 1
  | copying => 2
  | finished => 3

instance : LE RecvState := ⟨fun a b => a.rank ≤ b.rank⟩
instance (a b : RecvState) : Decidable (a ≤ b) := inferInstanceAs (Decidable (a.rank ≤ b.rank))

/-- `remote` is what the descriptor said, once it has been read without error. -/
structure RecvOperation (D : Type) where
  sequenceNumber : Nat
  state : RecvState := .uninitialized
  ptr : Nat
  length : Nat
  doneReadingDescriptor : Bool := false
  remote : Option D := none
  doneCopying : Bool := false
deriving DecidableEq, Repr

instance {D : Type} : Operation (RecvOperation D) RecvState where
  sequenceNumber := RecvOperation.sequenceNumber
  state := RecvOperation.state
  withState op st := { op with state := st }
  finished := .finished
  state_withState _ _ := rfl
  sequenceNumber_withState _ _ := rfl

/-- What a receive operation hands to the connection and to the context. -/
inductive RecvCall (D : Type) where
  | readDescriptor (n : Nat)
  | requestCopy (n : Nat) (remote : Option D) (ptr length : Nat)
  | writeCompletion (n : Nat)
deriving DecidableEq, Repr

-- ── Actions ──────────────────────────────────────────────────────────────────

section Actions

variable {D : Type}

/-- `describe` makes the descriptor of an address. -/
def writeDescriptor (describe : Nat → D) (io : Io (SendCall D)) (op : SendOperation) :
    Outcome (Io (SendCall D) × SendOperation) :=
  .returns (io.issue (.writeDescriptor op.sequenceNumber (describe op.ptr)), op)

/-- Reads the empty message with which the peer says that it has copied. -/
def readCompletion (io : Io (SendCall D)) (op : SendOperation) :
    Outcome (Io (SendCall D) × SendOperation) :=
  .returns (io.issue (.readCompletion op.sequenceNumber), op)

/-- The last action of a send: the user's callback, with the channel's error. -/
def callSendCallback (error : Bool) (io : Io (SendCall D)) (op : SendOperation) :
    Outcome (Io (SendCall D) × SendOperation) :=
  .returns (io.callback op.sequenceNumber error, op)

/-- Reads the descriptor of the peer's memory. -/
def readDescriptor (io : Io (RecvCall D)) (op : RecvOperation D) :
    Outcome (Io (RecvCall D) × RecvOperation D) :=
  .returns (io.issue (.readDescriptor op.sequenceNumber), op)

/-- Asks the context for the copy out of the peer's memory. -/
def copy (io : Io (RecvCall D)) (op : RecvOperation D) :
    Outcome (Io (RecvCall D) × RecvOperation D) :=
  .returns (io.issue (.requestCopy op.sequenceNumber op.remote op.ptr op.length), op)

/-- The last action of a receive: the user's callback, with the channel's error. -/
def callRecvCallback (error : Bool) (io : Io (RecvCall D)) (op : RecvOperation D) :
    Outcome (Io (RecvCall D) × RecvOperation D) :=
  .returns (io.callback op.sequenceNumber error, op)

/-- Writes the empty message which tells the peer that its memory was copied. -/
def writeCompletion (io : Io (RecvCall D)) (op : RecvOperation D) :
    Outcome (Io (RecvCall D) × RecvOperation D) :=
  .returns (io.issue (.writeCompletion op.sequenceNumber), op)

-- ── The transitions ──────────────────────────────────────────────────────────

/-- The attempts of `advanceSendOperation`, in the order in which the code makes them. -/
def advanceSendOperation (describe : Nat → D) (error : Bool) :
    List (Transition (Io (SendCall D)) SendOperation SendState) :=
  [ { source := .uninitialized
      target := .finished
      cond := fun op _ => error || op.length == 0
      actions := [callSendCallback error] },
    -- Needs to go after previous op to ensure predictable and consistent ordering of write
    -- calls on the descriptor control connection and read calls on the completion control
    -- connection.
    { source := .uninitialized
      target := .readingCompletion
      cond := fun _ prevOpState => !error && decide (.readingCompletion ≤ prevOpState)
      actions := [writeDescriptor describe, readCompletion] },
    { source := .readingCompletion
      target := .finished
      cond := fun op _ => op.doneReadingCompletion
      actions := [callSendCallback error] } ]

/-- The attempts of `advanceRecvOperation`, in the order in which the code makes them. -/
def advanceRecvOperation (error : Bool) :
    List (Transition (Io (RecvCall D)) (RecvOperation D) RecvState) :=
  [ { source := .uninitialized
      target := .finished
      cond := fun op _ => error || op.length == 0
      actions := [callRecvCallback error] },
    -- Needs to go after previous op to ensure predictable and consistent ordering of read
    -- calls on the descriptor control connection.
    { source := .uninitialized
      target := .readingDescriptor
      cond := fun _ prevOpState => !error && decide (.readingDescriptor ≤ prevOpState)
      actions := [readDescriptor] },
    { source := .readingDescriptor
      target := .finished
      cond := fun op _ => error && op.doneReadingDescriptor
      actions := [callRecvCallback error] },
    { source := .readingDescriptor
      target := .copying
      cond := fun op _ => !error && op.doneReadingDescriptor
      actions := [copy] },
    { source := .copying
      target := .finished
      cond := fun op _ => error && op.doneCopying
      actions := [callRecvCallback error] },
    -- Needs to go after previous op to ensure predictable and consistent ordering of write
    -- calls on the completion control connection.
    { source := .copying
      target := .finished
      cond := fun op prevOpState =>
        !error && op.doneCopying && decide (.finished ≤ prevOpState)
      actions := [callRecvCallback error, writeCompletion] } ]

end Actions

-- ── The channel ──────────────────────────────────────────────────────────────

/-- `error` tells whether `error_` is set. -/
structure ChannelImpl (D : Type) where
  error : Bool := false
  send : Side SendOperation (SendCall D) := {}
  recv : Side (RecvOperation D) (RecvCall D) := {}
deriving DecidableEq, Repr

/-- The tasks of the loop.  A call that reports says whether it failed, and the read of a
    descriptor what it read. -/
inductive Task (D : Type) where
  | send (ptr length : Nat)
  | recv (ptr length : Nat)
  | close
  | sendReport (call : SendCall D) (failed : Bool)
  | recvReport (call : RecvCall D) (failed : Bool) (descriptor : D)
deriving DecidableEq, Repr

namespace ChannelImpl

variable {D : Type}

/-- A channel of a context that is closed already gets its error without being
    initialised. -/
def init (contextClosed : Bool) : ChannelImpl D :=
  { error := contextClosed }

/-- Once the error is set, both sequences are walked from their first operation. -/
def handleErrorImpl (describe : Nat → D) (x : ChannelImpl D) : ChannelImpl D :=
  { x with
    send := x.send.advanceAll (advanceSendOperation describe x.error)
    recv := x.recv.advanceAll (advanceRecvOperation x.error) }

/-- Don't overwrite an error that's already set. -/
def setError (describe : Nat → D) (failed : Bool) (x : ChannelImpl D) : ChannelImpl D :=
  if x.error || !failed then x
  else handleErrorImpl describe { x with error := true }

/-- A call of `send`: refused by a channel in error, a new operation otherwise. -/
def sendFromLoop (describe : Nat → D) (ptr length : Nat) (x : ChannelImpl D) : ChannelImpl D :=
  if x.error then { x with send := x.send.refuse }
  else { x with
    send := x.send.submit (advanceSendOperation describe x.error)
      { sequenceNumber := x.send.next, ptr, length } }

/-- A call of `recv`: refused by a channel in error, a new operation otherwise. -/
def recvFromLoop (ptr length : Nat) (x : ChannelImpl D) : ChannelImpl D :=
  if x.error then { x with recv := x.recv.refuse }
  else { x with
    recv := x.recv.submit (advanceRecvOperation x.error)
      { sequenceNumber := x.recv.next, ptr, length } }

variable [DecidableEq D]

/-- The callbacks of the calls of the sending half, after the error was dealt with. -/
def onSendReport (describe : Nat → D) (call : SendCall D) (x : ChannelImpl D) : ChannelImpl D :=
  match call with
  | .writeDescriptor _ _ => { x with send := x.send.forget call }
  | .readCompletion n =>
      { x with
        send := x.send.report (advanceSendOperation describe x.error) call n
          (fun op => { op with doneReadingCompletion := true }) }

/-- A callback of the receiving side, which marks its operation and advances the sequence. -/
def onRecvReport (call : RecvCall D) (descriptor : D) (x : ChannelImpl D) : ChannelImpl D :=
  match call with
  | .readDescriptor n =>
      { x with
        recv := x.recv.report (advanceRecvOperation x.error) call n
          (fun op => { op with
            doneReadingDescriptor := true
            remote := if x.error then op.remote else some descriptor }) }
  | .requestCopy n _ _ _ =>
      { x with
        recv := x.recv.report (advanceRecvOperation x.error) call n
          (fun op => { op with doneCopying := true }) }
  | .writeCompletion _ => { x with recv := x.recv.forget call }

/-- A call reports once, while it is outstanding. -/
def enabled (x : ChannelImpl D) : Task D → Prop
  | .sendReport call _ => call ∈ x.send.io.calls
  | .recvReport call _ _ => call ∈ x.recv.io.calls
  | _ => True

/-- One task of the channel's loop. A report that failed sets the error before it is handled. -/
def step (describe : Nat → D) (x : ChannelImpl D) : Task D → ChannelImpl D
  | .send ptr length => sendFromLoop describe ptr length x
  | .recv ptr length => recvFromLoop ptr length x
  | .close => setError describe true x
  | .sendReport call failed => onSendReport describe call (setError describe failed x)
  | .recvReport call failed descriptor =>
      onRecvReport call descriptor (setError describe failed x)

/-- The states between two tasks of the loop. -/
inductive Reachable (describe : Nat → D) : ChannelImpl D → Prop where
  | init (contextClosed : Bool) : Reachable describe (init contextClosed)
  | step {x : ChannelImpl D} (h : Reachable describe x) (task : Task D)
      (henabled : x.enabled task) : Reachable describe (x.step describe task)

end ChannelImpl

-- ── The two channels ─────────────────────────────────────────────────────────

namespace Cma

/-- What cma sends ahead: the process that holds the memory, and where in it. -/
structure Descriptor where
  pid : UInt32
  ptr : Nat
deriving DecidableEq, Repr

/-- The descriptor of an address of the process `pid`. -/
def describe (pid : UInt32) (ptr : Nat) : Descriptor := { pid, ptr }

/-- The channel of cma. -/
abbrev ChannelImpl := TpCopy.ChannelImpl Descriptor

end Cma

namespace Xth

/-- What xth sends ahead: a pointer into the process that both ends share. -/
structure Descriptor where
  ptr : Nat
deriving DecidableEq, Repr

/-- The descriptor of a pointer, within one process. -/
def describe (ptr : Nat) : Descriptor := { ptr }

/-- The channel of xth. -/
abbrev ChannelImpl := TpCopy.ChannelImpl Descriptor

end Xth

-- ── What the calls captured ──────────────────────────────────────────────────

section Captures

variable {D : Type}

/-- The operation that the callback of a call of the sending side captures, if there is one. -/
def SendCall.captures : SendCall D → Option Nat
  | .writeDescriptor _ _ => none
  | .readCompletion n => some n

/-- The operation that the callback of a call of the receiving side captures, if there is one. -/
def RecvCall.captures : RecvCall D → Option Nat
  | .readDescriptor n => some n
  | .requestCopy n _ _ _ => some n
  | .writeCompletion _ => none

/-- A send operation waits for its completion. -/
def SendOperation.waits (op : SendOperation) : Prop :=
  op.state = .readingCompletion ∧ op.doneReadingCompletion = false

/-- A receive operation waits for its descriptor, then for its copy. -/
def RecvOperation.waits (op : RecvOperation D) : RecvCall D → Prop
  | .readDescriptor _ => op.state = .readingDescriptor ∧ op.doneReadingDescriptor = false
  | .requestCopy _ _ _ _ => op.state = .copying ∧ op.doneCopying = false
  | .writeCompletion _ => False

/-- What the sending side waits for: one callback, of the completion. -/
def sendCapture : Capture SendOperation (SendCall D) where
  captures := SendCall.captures
  pending op := match op.state with
    | .readingCompletion => if op.doneReadingCompletion then 0 else 1
    | _ => 0
  Fits op _ := op.waits
  Wf op := op.state = .uninitialized → op.doneReadingCompletion = false

/-- What the receiving side waits for: the descriptor first, then the copy. -/
def recvCapture : Capture (RecvOperation D) (RecvCall D) where
  captures := RecvCall.captures
  pending op := match op.state with
    | .readingDescriptor => if op.doneReadingDescriptor then 0 else 1
    | .copying => if op.doneCopying then 0 else 1
    | _ => 0
  Fits := RecvOperation.waits
  Wf op := (op.state = .uninitialized → op.doneReadingDescriptor = false)
    ∧ (op.state = .uninitialized ∨ op.state = .readingDescriptor → op.doneCopying = false)

-- ── Each transition keeps the account ────────────────────────────────────────

/-- Each attempt of a send issues what its new state waits for, and nothing else. -/
theorem sendSound (describe : Nat → D) (error : Bool) :
    Sound sendCapture (advanceSendOperation describe error) where
  idle := by
    intro op hfin
    have hstate : op.state = .finished := hfin
    simp only [sendCapture, hstate]
  notFinished := by
    intro t ht
    simp only [advanceSendOperation, List.mem_cons, List.not_mem_nil, or_false] at ht
    rcases ht with rfl | rfl | rfl
    all_goals exact nofun
  fire := by
    intro t ht io op prev hwf hsource hcond
    simp only [advanceSendOperation, List.mem_cons, List.not_mem_nil, or_false] at ht
    rcases ht with rfl | rfl | rfl
    · have hstate : op.state = .uninitialized := hsource
      refine ⟨rfl, nofun, ⟨[], (List.append_nil _).symm, nofun, ?_⟩, ?_, error, rfl⟩
      · simp only [sendCapture, hstate]
        rfl
      · intro c hfits
        exact nomatch hstate.symm.trans hfits.1
    · have hstate : op.state = .uninitialized := hsource
      have hdone : op.doneReadingCompletion = false := hwf hstate
      refine ⟨rfl, nofun, ⟨[.writeDescriptor op.sequenceNumber (describe op.ptr),
        .readCompletion op.sequenceNumber], List.append_assoc .., ?_, ?_⟩, ?_, false, ?_⟩
      · intro c hc n hcap
        rcases List.mem_cons.mp hc with rfl | hc
        · exact nomatch hcap
        · rw [List.mem_singleton.mp hc] at hcap
          exact ⟨(Option.some.inj hcap).symm, rfl, hdone⟩
      · simp only [sendCapture, hstate, List.countP_cons, List.countP_nil]
        simp [SendCall.captures, withState, sequenceNumber, hdone]
      · intro c hfits
        exact nomatch hstate.symm.trans hfits.1
      · exact (List.append_nil _).symm
    · have hstate : op.state = .readingCompletion := hsource
      have hdone : op.doneReadingCompletion = true := hcond
      refine ⟨rfl, nofun, ⟨[], (List.append_nil _).symm, nofun, ?_⟩, ?_, error, rfl⟩
      · simp only [sendCapture, hstate, hdone]
        rfl
      · intro c hfits
        exact nomatch hdone.symm.trans hfits.2

/-- A send never goes back to an earlier state. -/
theorem sendForward (describe : Nat → D) (error : Bool) :
    Forward (advanceSendOperation describe error) where
  later := by
    simp only [advanceSendOperation, List.pairwise_cons, List.mem_cons, List.not_mem_nil,
      or_false, forall_eq_or_imp, forall_eq]
    simp
  moves := by simp [advanceSendOperation]
  notFinished := (sendSound describe error).notFinished
  keepsNumber := by
    intro t ht a ha io op
    simp only [advanceSendOperation, List.mem_cons, List.not_mem_nil, or_false] at ht
    rcases ht with rfl | rfl | rfl
    · obtain rfl := List.mem_singleton.mp ha
      rfl
    · rcases List.mem_cons.mp ha with rfl | ha
      · rfl
      · obtain rfl := List.mem_singleton.mp ha
        rfl
    · obtain rfl := List.mem_singleton.mp ha
      rfl

/-- Each attempt of a receive issues what its new state waits for, and nothing else. -/
theorem recvSound (error : Bool) :
    Sound (recvCapture (D := D)) (advanceRecvOperation error) where
  idle := by
    intro op hfin
    have hstate : op.state = .finished := hfin
    simp only [recvCapture, hstate]
  notFinished := by
    intro t ht
    simp only [advanceRecvOperation, List.mem_cons, List.not_mem_nil, or_false] at ht
    rcases ht with rfl | rfl | rfl | rfl | rfl | rfl
    all_goals exact nofun
  fire := by
    intro t ht io op prev hwf hsource hcond
    -- An operation that moves has no call outstanding: none fits it.
    have hnone : ∀ c : RecvCall D, (op.state = .uninitialized
        ∨ (op.state = .readingDescriptor ∧ op.doneReadingDescriptor = true)
        ∨ (op.state = .copying ∧ op.doneCopying = true)) → ¬ op.waits c := by
      intro c hcases hwaits
      cases c with
      | readDescriptor n =>
          rcases hcases with hs | ⟨hs, hd⟩ | ⟨hs, hd⟩
          · exact nomatch hs.symm.trans hwaits.1
          · exact nomatch hd.symm.trans hwaits.2
          · exact nomatch hs.symm.trans hwaits.1
      | requestCopy n remote ptr length =>
          rcases hcases with hs | ⟨hs, hd⟩ | ⟨hs, hd⟩
          · exact nomatch hs.symm.trans hwaits.1
          · exact nomatch hs.symm.trans hwaits.1
          · exact nomatch hd.symm.trans hwaits.2
      | writeCompletion n => exact hwaits
    simp only [advanceRecvOperation, List.mem_cons, List.not_mem_nil, or_false] at ht
    rcases ht with rfl | rfl | rfl | rfl | rfl | rfl
    · have hstate : op.state = .uninitialized := hsource
      refine ⟨rfl, ⟨nofun, nofun⟩, ⟨[], (List.append_nil _).symm, nofun, ?_⟩,
        fun c hfits => absurd hfits (hnone c (Or.inl hstate)), error, rfl⟩
      simp only [recvCapture, hstate]
      rfl
    · have hstate : op.state = .uninitialized := hsource
      have hdone : op.doneReadingDescriptor = false := hwf.1 hstate
      have hcopied : op.doneCopying = false := hwf.2 (Or.inl hstate)
      refine ⟨rfl, ⟨nofun, fun _ => hcopied⟩, ⟨[.readDescriptor op.sequenceNumber], rfl, ?_, ?_⟩,
        fun c hfits => absurd hfits (hnone c (Or.inl hstate)), false, (List.append_nil _).symm⟩
      · intro c hc n hcap
        rw [List.mem_singleton.mp hc] at hcap ⊢
        exact ⟨(Option.some.inj hcap).symm, rfl, hdone⟩
      · simp only [recvCapture, hstate, List.countP_cons, List.countP_nil]
        simp [RecvCall.captures, withState, sequenceNumber, hdone]
    · have hstate : op.state = .readingDescriptor := hsource
      have hdone : op.doneReadingDescriptor = true := (Bool.and_eq_true_iff.mp hcond).2
      refine ⟨rfl, ⟨nofun, nofun⟩, ⟨[], (List.append_nil _).symm, nofun, ?_⟩,
        fun c hfits => absurd hfits (hnone c (Or.inr (Or.inl ⟨hstate, hdone⟩))), error, rfl⟩
      simp only [recvCapture, hstate, hdone]
      rfl
    · have hstate : op.state = .readingDescriptor := hsource
      have hdone : op.doneReadingDescriptor = true := (Bool.and_eq_true_iff.mp hcond).2
      have hcopied : op.doneCopying = false := hwf.2 (Or.inr hstate)
      refine ⟨rfl, ⟨nofun, nofun⟩,
        ⟨[.requestCopy op.sequenceNumber op.remote op.ptr op.length], rfl, ?_, ?_⟩,
        fun c hfits => absurd hfits (hnone c (Or.inr (Or.inl ⟨hstate, hdone⟩))), false,
        (List.append_nil _).symm⟩
      · intro c hc n hcap
        rw [List.mem_singleton.mp hc] at hcap ⊢
        exact ⟨(Option.some.inj hcap).symm, rfl, hcopied⟩
      · simp only [recvCapture, hstate, hdone, List.countP_cons, List.countP_nil]
        simp [RecvCall.captures, withState, sequenceNumber, hcopied]
    · have hstate : op.state = .copying := hsource
      have hdone : op.doneCopying = true := (Bool.and_eq_true_iff.mp hcond).2
      refine ⟨rfl, ⟨nofun, nofun⟩, ⟨[], (List.append_nil _).symm, nofun, ?_⟩,
        fun c hfits => absurd hfits (hnone c (Or.inr (Or.inr ⟨hstate, hdone⟩))), error, rfl⟩
      simp only [recvCapture, hstate, hdone]
      rfl
    · have hstate : op.state = .copying := hsource
      have hdone : op.doneCopying = true :=
        (Bool.and_eq_true_iff.mp (Bool.and_eq_true_iff.mp hcond).1).2
      refine ⟨rfl, ⟨nofun, nofun⟩, ⟨[.writeCompletion op.sequenceNumber], rfl, ?_, ?_⟩,
        fun c hfits => absurd hfits (hnone c (Or.inr (Or.inr ⟨hstate, hdone⟩))), error, rfl⟩
      · intro c hc n hcap
        rw [List.mem_singleton.mp hc] at hcap
        exact nomatch hcap
      · simp only [recvCapture, hstate, hdone, List.countP_cons, List.countP_nil]
        rfl

/-- A receive never goes back to an earlier state. -/
theorem recvForward (error : Bool) :
    Forward (advanceRecvOperation (D := D) error) where
  later := by
    simp only [advanceRecvOperation, List.pairwise_cons, List.mem_cons, List.not_mem_nil,
      or_false, forall_eq_or_imp, forall_eq]
    simp
  moves := by simp [advanceRecvOperation]
  notFinished := (recvSound error).notFinished
  keepsNumber := by
    intro t ht a ha io op
    simp only [advanceRecvOperation, List.mem_cons, List.not_mem_nil, or_false] at ht
    rcases ht with rfl | rfl | rfl | rfl | rfl | rfl
    all_goals
      simp only [List.mem_cons, List.not_mem_nil, or_false] at ha
    · rw [ha]; rfl
    · rw [ha]; rfl
    · rw [ha]; rfl
    · rw [ha]; rfl
    · rw [ha]; rfl
    · rcases ha with rfl | rfl
      · rfl
      · rfl

-- ── What an operation that cannot move waits for ─────────────────────────────

/-- Once the error is set, an operation that cannot move waits for a call. -/
theorem send_waits {describe : Nat → D} {prev : SendState} {op : SendOperation}
    (h : ¬ Enabled (advanceSendOperation describe true) prev op)
    (hst : Operation.state op ≠ finished SendOperation) :
    0 < (sendCapture (D := D)).pending op := by
  cases hstate : op.state with
  | uninitialized => exact absurd ⟨_, List.mem_cons_self .., hstate, rfl⟩ h
  | readingCompletion =>
      cases hdone : op.doneReadingCompletion with
      | false => simp only [sendCapture, hstate, hdone]; exact Nat.one_pos
      | true =>
          exact absurd ⟨_, List.mem_cons_of_mem _ (List.mem_cons_of_mem _
            (List.mem_cons_self ..)), hstate, hdone⟩ h
  | finished => exact absurd hstate hst

/-- In error, a receive which cannot advance waits for a callback that is still to come. -/
theorem recv_waits {prev : RecvState} {op : RecvOperation D}
    (h : ¬ Enabled (advanceRecvOperation true) prev op)
    (hst : Operation.state op ≠ finished (RecvOperation D)) :
    0 < recvCapture.pending op := by
  cases hstate : op.state with
  | uninitialized => exact absurd ⟨_, List.mem_cons_self .., hstate, rfl⟩ h
  | readingDescriptor =>
      cases hdone : op.doneReadingDescriptor with
      | false => simp only [recvCapture, hstate, hdone]; exact Nat.one_pos
      | true =>
          exact absurd ⟨_, List.mem_cons_of_mem _ (List.mem_cons_of_mem _
            (List.mem_cons_self ..)), hstate, hdone⟩ h
  | copying =>
      cases hdone : op.doneCopying with
      | false => simp only [recvCapture, hstate, hdone]; exact Nat.one_pos
      | true =>
          exact absurd ⟨_, List.mem_cons_of_mem _ (List.mem_cons_of_mem _ (List.mem_cons_of_mem _
            (List.mem_cons_of_mem _ (List.mem_cons_self ..)))), hstate, hdone⟩ h
  | finished => exact absurd hstate hst

/-- The front of a queue at rest stays where it is when the error comes. -/
theorem send_front_stays {describe : Nat → D} {op : SendOperation}
    (h : ¬ Enabled (advanceSendOperation describe false) (finished SendOperation) op) :
    ¬ Enabled (advanceSendOperation describe true) (finished SendOperation) op := by
  rintro ⟨t, ht, hsource, hcond⟩
  simp only [advanceSendOperation, List.mem_cons, List.not_mem_nil, or_false] at ht
  rcases ht with rfl | rfl | rfl
  · exact h ⟨_, List.mem_cons_of_mem _ (List.mem_cons_self ..), hsource, rfl⟩
  · exact nomatch hcond
  · exact h ⟨_, List.mem_cons_of_mem _ (List.mem_cons_of_mem _ (List.mem_cons_self ..)),
      hsource, hcond⟩

/-- A receive at the front which cannot advance cannot do so after an error either. -/
theorem recv_front_stays {op : RecvOperation D}
    (h : ¬ Enabled (advanceRecvOperation false) (finished (RecvOperation D)) op) :
    ¬ Enabled (advanceRecvOperation true) (finished (RecvOperation D)) op := by
  rintro ⟨t, ht, hsource, hcond⟩
  simp only [advanceRecvOperation, List.mem_cons, List.not_mem_nil, or_false] at ht
  rcases ht with rfl | rfl | rfl | rfl | rfl | rfl
  · exact h ⟨_, List.mem_cons_of_mem _ (List.mem_cons_self ..), hsource, rfl⟩
  · exact nomatch hcond
  · exact h ⟨_, List.mem_cons_of_mem _ (List.mem_cons_of_mem _ (List.mem_cons_of_mem _
      (List.mem_cons_self ..))), hsource, hcond⟩
  · exact nomatch hcond
  · refine h ⟨_, List.mem_cons_of_mem _ (List.mem_cons_of_mem _ (List.mem_cons_of_mem _
      (List.mem_cons_of_mem _ (List.mem_cons_of_mem _ (List.mem_cons_self ..))))), hsource, ?_⟩
    have hdone : op.doneCopying = true := hcond
    show (!false && op.doneCopying && decide (RecvState.finished ≤ .finished)) = true
    rw [hdone]
    rfl
  · exact nomatch hcond

end Captures

-- ── The invariant of a channel ───────────────────────────────────────────────

namespace ChannelImpl

variable {D : Type}

/-- Both sequences are at rest between two tasks. -/
structure ChannelInv (describe : Nat → D) (x : ChannelImpl D) : Prop where
  send : Resting sendCapture (advanceSendOperation describe x.error) x.error x.send
  recv : Resting recvCapture (advanceRecvOperation x.error) x.error x.recv

/-- A new channel has nothing to advance. -/
theorem inv_init (describe : Nat → D) (contextClosed : Bool) :
    ChannelInv describe (init contextClosed) :=
  ⟨resting_empty, resting_empty⟩

/-- Handling an error leaves both sequences at rest, for the transitions in error. -/
theorem inv_setError {describe : Nat → D} (failed : Bool) {x : ChannelImpl D}
    (h : ChannelInv describe x) : ChannelInv describe (setError describe failed x) := by
  rw [setError]
  by_cases hskip : (x.error || !failed) = true
  · rw [if_pos hskip]
    exact h
  rw [if_neg hskip]
  have herror : x.error = false := by
    cases hx : x.error with
    | false => rfl
    | true => rw [hx] at hskip; exact absurd rfl hskip
  obtain ⟨hsend, hrecv⟩ := h
  rw [herror] at hsend hrecv
  -- The fronts of both queues wait for a call, so neither walk pops anything.
  refine ⟨resting_advanceAll (sendSound describe true) (sendForward describe true) hsend nofun
    (Or.inl ?_), resting_advanceAll (recvSound true) (recvForward true) hrecv nofun (Or.inl ?_)⟩
  · intro front rest hops
    obtain ⟨_, -, hrest⟩ := hsend
    have hstable := hrest.stable
    rw [show x.send.ops = front :: rest from hops] at hstable
    exact send_front_stays hstable.1
  · intro front rest hops
    obtain ⟨_, -, hrest⟩ := hrecv
    have hstable := hrest.stable
    rw [show x.recv.ops = front :: rest from hops] at hstable
    exact recv_front_stays hstable.1

/-- A call of `send` keeps both sequences at rest. -/
theorem inv_sendFromLoop {describe : Nat → D} (ptr length : Nat) {x : ChannelImpl D}
    (h : ChannelInv describe x) : ChannelInv describe (sendFromLoop describe ptr length x) := by
  rw [sendFromLoop]
  by_cases herror : x.error = true
  · rw [if_pos herror]
    obtain ⟨hsend, hrecv⟩ := h
    rw [herror] at hsend
    refine ⟨?_, hrecv⟩
    rw [show ({ x with send := x.send.refuse } : ChannelImpl D).error = true from herror]
    exact resting_refuse hsend
  · rw [if_neg herror]
    have hfalse : x.error = false := Bool.eq_false_iff.mpr herror
    obtain ⟨hsend, hrecv⟩ := h
    refine ⟨?_, hrecv⟩
    rw [hfalse] at hsend ⊢
    exact resting_submit (sendSound describe false) (sendForward describe false) hsend rfl nofun
      (fun _ => rfl) rfl

/-- A call of `recv` keeps both sequences at rest. -/
theorem inv_recvFromLoop {describe : Nat → D} (ptr length : Nat) {x : ChannelImpl D}
    (h : ChannelInv describe x) : ChannelInv describe (recvFromLoop ptr length x) := by
  rw [recvFromLoop]
  by_cases herror : x.error = true
  · rw [if_pos herror]
    obtain ⟨hsend, hrecv⟩ := h
    rw [herror] at hrecv
    refine ⟨hsend, ?_⟩
    rw [show ({ x with recv := x.recv.refuse } : ChannelImpl D).error = true from herror]
    exact resting_refuse hrecv
  · rw [if_neg herror]
    have hfalse : x.error = false := Bool.eq_false_iff.mpr herror
    obtain ⟨hsend, hrecv⟩ := h
    refine ⟨hsend, ?_⟩
    rw [hfalse] at hrecv ⊢
    exact resting_submit (recvSound false) (recvForward false) hrecv rfl nofun
      ⟨fun _ => rfl, fun _ => rfl⟩ rfl

variable [DecidableEq D]

omit [DecidableEq D] in
/-- Dealing with an error issues no report of its own: what was outstanding still is. -/
theorem setError_calls {describe : Nat → D} (failed : Bool) {x : ChannelImpl D}
    (h : ChannelInv describe x) :
    (∀ c ∈ x.send.io.calls, c ∈ (setError describe failed x).send.io.calls)
      ∧ (∀ c ∈ x.recv.io.calls, c ∈ (setError describe failed x).recv.io.calls) := by
  rw [setError]
  by_cases hskip : (x.error || !failed) = true
  · rw [if_pos hskip]
    exact ⟨fun _ hc => hc, fun _ hc => hc⟩
  rw [if_neg hskip]
  obtain ⟨⟨_, -, hsend⟩, ⟨_, -, hrecv⟩⟩ := h
  exact ⟨fun c hc => advanceAll_calls (sendSound describe true) hsend.inv hc,
    fun c hc => advanceAll_calls (recvSound true) hrecv.inv hc⟩

/-- A callback of the sending side keeps both sequences at rest. -/
theorem inv_onSendReport {describe : Nat → D} {call : SendCall D} {x : ChannelImpl D}
    (h : ChannelInv describe x) (hcall : call ∈ x.send.io.calls) :
    ChannelInv describe (onSendReport describe call x) := by
  obtain ⟨hsend, hrecv⟩ := h
  cases call with
  | writeDescriptor n descriptor => exact ⟨resting_forget hsend rfl, hrecv⟩
  | readCompletion n =>
      refine ⟨resting_report (sendSound describe x.error) (sendForward describe x.error) hsend
        ⟨hcall, rfl, fun _ => rfl, fun _ => rfl, ?_, ?_⟩, hrecv⟩
      · intro op _ _ _ hfits
        refine ⟨fun hstate => (nomatch hfits.1.symm.trans hstate), ?_⟩
        simp only [sendCapture, hfits.1, hfits.2]
        rfl
      · intro op c' hfits hpos
        simp only [sendCapture, hfits.1] at hpos
        exact absurd hpos (Nat.lt_irrefl 0)

/-- A callback of the receiving side keeps both sequences at rest. -/
theorem inv_onRecvReport {describe : Nat → D} {call : RecvCall D} (descriptor : D)
    {x : ChannelImpl D} (h : ChannelInv describe x) (hcall : call ∈ x.recv.io.calls) :
    ChannelInv describe (onRecvReport call descriptor x) := by
  obtain ⟨hsend, hrecv⟩ := h
  cases call with
  | readDescriptor n =>
      refine ⟨hsend, resting_report (recvSound x.error) (recvForward x.error) hrecv
        ⟨hcall, rfl, fun _ => rfl, fun _ => rfl, ?_, ?_⟩⟩
      · intro op _ _ hwf hfits
        refine ⟨⟨fun hstate => (nomatch hfits.1.symm.trans hstate), hwf.2⟩, ?_⟩
        simp only [recvCapture, hfits.1, hfits.2]
        rfl
      · intro op c' hfits hpos
        cases c' with
        | readDescriptor m =>
            simp only [recvCapture, hfits.1] at hpos
            exact absurd hpos (Nat.lt_irrefl 0)
        | requestCopy m remote ptr length => exact hfits
        | writeCompletion m => exact hfits
  | requestCopy n remote ptr length =>
      refine ⟨hsend, resting_report (recvSound x.error) (recvForward x.error) hrecv
        ⟨hcall, rfl, fun _ => rfl, fun _ => rfl, ?_, ?_⟩⟩
      · intro op _ _ hwf hfits
        refine ⟨⟨hwf.1, fun hstate => ?_⟩, ?_⟩
        · rcases hstate with hstate | hstate
          · exact nomatch hfits.1.symm.trans hstate
          · exact nomatch hfits.1.symm.trans hstate
        · simp only [recvCapture, hfits.1, hfits.2]
          rfl
      · intro op c' hfits hpos
        cases c' with
        | readDescriptor m => exact hfits
        | requestCopy m remote' ptr' length' =>
            simp only [recvCapture, hfits.1] at hpos
            exact absurd hpos (Nat.lt_irrefl 0)
        | writeCompletion m => exact hfits
  | writeCompletion n => exact ⟨hsend, resting_forget hrecv rfl⟩

/-- No task that can run leaves a sequence which could still advance. -/
theorem inv_step {describe : Nat → D} {x : ChannelImpl D} (h : ChannelInv describe x)
    (task : Task D) (henabled : x.enabled task) : ChannelInv describe (x.step describe task) := by
  cases task with
  | send ptr length => exact inv_sendFromLoop ptr length h
  | recv ptr length => exact inv_recvFromLoop ptr length h
  | close => exact inv_setError true h
  | sendReport call failed =>
      exact inv_onSendReport (inv_setError failed h) ((setError_calls failed h).1 _ henabled)
  | recvReport call failed descriptor =>
      exact inv_onRecvReport descriptor (inv_setError failed h)
        ((setError_calls failed h).2 _ henabled)

/-- In every reachable state both sequences are at rest. -/
theorem inv_reachable {describe : Nat → D} {x : ChannelImpl D} (h : Reachable describe x) :
    ChannelInv describe x := by
  induction h with
  | init contextClosed => exact inv_init describe contextClosed
  | step _ task henabled ih => exact inv_step ih task henabled

end ChannelImpl

end TpCopy
