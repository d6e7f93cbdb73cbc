import Mathlib.Tactic.Common
import Tensorpipe.CopyChannelProofs
import Tensorpipe.SideImageProofs

/-! # Two connected cma or xth channels

    The completions that travel back are empty frames and the descriptors carry no number:
    which operation a frame is for is a matter of order alone.  Here two channels are put
    together with the connections between them and the copy threads of their contexts, all of
    them FIFO, and run without errors.

    Each link logs who read what of whom.  In every reachable state the log agrees with the
    numbers, and a sender's callback comes after the copy. -/

namespace TpCopy

open TpStateMachine

-- ── What travels ─────────────────────────────────────────────────────────────

section Frames

variable {D : Type}

/-- A frame on the descriptor connection, with the operation that wrote it. -/
def SendCall.descriptor? : SendCall D → Option (Nat × D)
  | .writeDescriptor n descriptor => some (n, descriptor)
  | .readCompletion _ => none

/-- The send whose completion a call reads. -/
def SendCall.completionRead? : SendCall D → Option Nat
  | .writeDescriptor _ _ => none
  | .readCompletion n => some n

/-- The receive whose descriptor a call reads. -/
def RecvCall.descriptorRead? : RecvCall D → Option Nat
  | .readDescriptor n => some n
  | _ => none

/-- The copy that a call asks for. -/
def RecvCall.copy? : RecvCall D → Option (Nat × Option D × Nat × Nat)
  | .requestCopy n remote ptr length => some (n, remote, ptr, length)
  | _ => none

/-- A frame on the completion connection; the number is not on the wire. -/
def RecvCall.completion? : RecvCall D → Option Nat
  | .writeCompletion n => some n
  | _ => none

end Frames

-- ── The pair ─────────────────────────────────────────────────────────────────

/-- One direction: which send operation each receive operation read the descriptor of, which
    copies the thread has finished and how many of them it has reported, and which receive
    operation each send operation read the completion of. -/
structure Link where
  descriptorsRead : List (Nat × Nat) := []
  copied : List Nat := []
  copiesReported : Nat := 0
  completionsRead : List (Nat × Nat) := []
deriving DecidableEq, Repr

/-- Two channels, and the link from each of them to the other one. -/
structure Pair (D : Type) where
  channel : Bool → ChannelImpl D := fun _ => {}
  link : Bool → Link := fun _ => {}

/-- What can happen next, on the link from channel `d` to channel `!d`. -/
inductive Event where
  | send (d : Bool) (ptr : Nat)
  | recv (d : Bool) (ptr : Nat)
  | descriptorWritten (d : Bool)
  | descriptorRead (d : Bool)
  | copied (d : Bool)
  | copyReported (d : Bool)
  | completionWritten (d : Bool)
  | completionRead (d : Bool)
deriving DecidableEq, Repr

namespace Pair

variable {D : Type} [DecidableEq D]

/-- A task of one of the two channels, with a new state of the link `d`. -/
def act (describe : Bool → Nat → D) (p : Pair D) (who : Bool) (task : Task D) (d : Bool)
    (link : Link) : Pair D where
  channel w := if w = who then (p.channel w).step (describe w) task else p.channel w
  link e := if e = d then link else p.link e

/-- The k-th frame written on a connection answers the k-th read, and the thread takes the
    requests in the order in which they came.  The k-th send of a channel and the k-th
    receive of the other one have the same length. -/
def step (describe : Bool → Nat → D) (lengths : Bool → Nat → Nat) (p : Pair D) :
    Event → Option (Pair D)
  | .send d ptr =>
      some (p.act describe d (.send ptr (lengths d (p.channel d).send.next)) d (p.link d))
  | .recv d ptr =>
      some (p.act describe (!d) (.recv ptr (lengths d (p.channel !d).recv.next)) d (p.link d))
  | .descriptorWritten d =>
      match (p.channel d).send.io.calls.find? (fun c => c.descriptor?.isSome) with
      | none => none
      | some call => some (p.act describe d (.sendReport call false) d (p.link d))
  | .descriptorRead d =>
      let l := p.link d
      match ((p.channel !d).recv.io.issued.filterMap RecvCall.descriptorRead?)[
          l.descriptorsRead.length]?,
        ((p.channel d).send.io.issued.filterMap SendCall.descriptor?)[
          l.descriptorsRead.length]? with
      | some n, some (m, descriptor) =>
          some (p.act describe (!d) (.recvReport (.readDescriptor n) false descriptor) d
            { l with descriptorsRead := l.descriptorsRead ++ [(n, m)] })
      | _, _ => none
  | .copied d =>
      let l := p.link d
      match ((p.channel !d).recv.io.issued.filterMap RecvCall.copy?)[l.copied.length]? with
      | none => none
      | some copy =>
          some { p with
            link := fun e => if e = d then { l with copied := l.copied ++ [copy.1] }
              else p.link e }
  | .copyReported d =>
      let l := p.link d
      match ((p.channel !d).recv.io.issued.filterMap RecvCall.copy?)[l.copiesReported]? with
      | none => none
      | some (n, remote, ptr, length) =>
          if l.copiesReported < l.copied.length then
            some (p.act describe (!d)
              (.recvReport (.requestCopy n remote ptr length) false (describe d 0)) d
              { l with copiesReported := l.copiesReported + 1 })
          else none
  | .completionWritten d =>
      match (p.channel !d).recv.io.calls.find? (fun c => c.completion?.isSome) with
      | none => none
      | some call =>
          some (p.act describe (!d) (.recvReport call false (describe d 0)) d (p.link d))
  | .completionRead d =>
      let l := p.link d
      match ((p.channel d).send.io.issued.filterMap SendCall.completionRead?)[
          l.completionsRead.length]?,
        ((p.channel !d).recv.io.issued.filterMap RecvCall.completion?)[
          l.completionsRead.length]? with
      | some n, some m =>
          some (p.act describe d (.sendReport (.readCompletion n) false) d
            { l with completionsRead := l.completionsRead ++ [(n, m)] })
      | _, _ => none

/-- The pairs that can be reached from two new ends. -/
inductive Reachable (describe : Bool → Nat → D) (lengths : Bool → Nat → Nat) : Pair D → Prop where
  | init : Reachable describe lengths {}
  | step {p p' : Pair D} (h : Reachable describe lengths p) (event : Event)
      (hstep : p.step describe lengths event = some p') : Reachable describe lengths p'

/-- Event after event, while they can happen. -/
def run (describe : Bool → Nat → D) (lengths : Bool → Nat → Nat) :
    List Event → Pair D → Option (Pair D)
  | [], p => some p
  | event :: events, p => (p.step describe lengths event).bind (run describe lengths events)

/-- A run of events leads to a pair that can be reached. -/
theorem reachable_run {describe : Bool → Nat → D} {lengths : Bool → Nat → Nat} {p p' : Pair D}
    (h : Reachable describe lengths p) (events : List Event)
    (hrun : run describe lengths events p = some p') : Reachable describe lengths p' := by
  induction events generalizing p with
  | nil =>
      obtain rfl := Option.some.inj hrun
      exact h
  | cons event events ih =>
      obtain ⟨q, hq, hrest⟩ := Option.bind_eq_some_iff.mp hrun
      exact ih (.step h event hq) hrest

end Pair

-- ── The sender as an image ───────────────────────────────────────────────────

/-- The tensors that are not empty are the ones that travel. -/
def travels (lengths : Nat → Nat) (n : Nat) : Bool := lengths n != 0

section Sender

variable {D : Type} {describe : Nat → D} {lengths ptrs : Nat → Nat} {k : Nat}
  {x : Side SendOperation (SendCall D)}

/-- The n-th send operation after `k` completions. -/
def sendOpAt (ptrs lengths : Nat → Nat) (k n : Nat) : SendOperation where
  sequenceNumber := n
  state := if travels lengths n = true ∧ k ≤ indexOf (travels lengths) n then .readingCompletion
    else .finished
  ptr := ptrs n
  length := lengths n
  doneReadingCompletion := travels lengths n && decide (indexOf (travels lengths) n < k)

/-- The sender after `k` completions: its queue, what it wrote and what it reads, and the
    callbacks it has invoked. -/
structure SendImage (describe : Nat → D) (lengths ptrs : Nat → Nat) (k : Nat)
    (x : Side SendOperation (SendCall D)) : Prop where
  ops : x.ops = popFinished (image (sendOpAt ptrs lengths k) x.next)
  descriptors : x.io.issued.filterMap SendCall.descriptor?
    = (numbersBelow (travels lengths) x.next).map (fun n => (n, describe (ptrs n)))
  completions : x.io.issued.filterMap SendCall.completionRead?
    = numbersBelow (travels lengths) x.next
  bound : k ≤ indexOf (travels lengths) x.next
  callbacks : ∀ n error, (n, error) ∈ x.io.callbacks → travels lengths n = true →
    indexOf (travels lengths) n < k

/-- A send as the image gives it cannot advance. -/
theorem sendOpAt_settled (describe : Nat → D) (ptrs lengths : Nat → Nat) (k n : Nat) :
    Settled (advanceSendOperation describe false) (sendOpAt ptrs lengths k n) := by
  rintro prev ⟨t, ht, hsource, hcond⟩
  simp only [advanceSendOperation, List.mem_cons, List.not_mem_nil, or_false] at ht
  have hstate : (sendOpAt ptrs lengths k n).state = t.source := hsource
  by_cases hopen : travels lengths n = true ∧ k ≤ indexOf (travels lengths) n
  · simp only [sendOpAt, if_pos hopen] at hstate
    rcases ht with rfl | rfl | rfl
    · exact absurd hstate (by simp)
    · exact absurd hstate (by simp)
    · have hdone : (travels lengths n && decide (indexOf (travels lengths) n < k)) = true := hcond
      rw [hopen.1, Bool.true_and, decide_eq_true_iff] at hdone
      omega
  · simp only [sendOpAt, if_neg hopen] at hstate
    rcases ht with rfl | rfl | rfl
    all_goals exact absurd hstate (by simp)

/-- A send without bytes finishes at once. -/
theorem sendTransition_empty {prev : SendState} {io : Io (SendCall D)} {n ptr : Nat} :
    transition (advanceSendOperation describe false) prev
        (io, { sequenceNumber := n, ptr, length := 0 })
      = .returns (io.callback n false,
        { sequenceNumber := n, state := .finished, ptr, length := 0 }) := by
  simp [advanceSendOperation, transition, attemptTransition, runActions, Operation.state,
    callSendCallback, withState]

/-- A send with bytes writes its descriptor and waits for the completion. -/
theorem sendTransition_start {prev : SendState} (hprev : SendState.readingCompletion ≤ prev)
    {io : Io (SendCall D)} {n ptr length : Nat} (hlength : length ≠ 0) :
    transition (advanceSendOperation describe false) prev
        (io, { sequenceNumber := n, ptr, length })
      = .returns ((io.issue (.writeDescriptor n (describe ptr))).issue (.readCompletion n),
        { sequenceNumber := n, state := .readingCompletion, ptr, length }) := by
  simp [advanceSendOperation, transition, attemptTransition, runActions, Operation.state,
    writeDescriptor, readCompletion, withState, hlength, hprev]

/-- A send whose completion was read finishes. -/
theorem sendTransition_finish {prev : SendState} {io : Io (SendCall D)} {op : SendOperation}
    (hstate : op.state = .readingCompletion) (hdone : op.doneReadingCompletion = true) :
    transition (advanceSendOperation describe false) prev (io, op)
      = .returns (io.callback op.sequenceNumber false, { op with state := .finished }) := by
  simp [advanceSendOperation, transition, attemptTransition, runActions, Operation.state,
    callSendCallback, withState, hstate, hdone]

/-- A side without sends. -/
theorem sendImage_empty : SendImage describe lengths ptrs 0 {} :=
  ⟨rfl, rfl, rfl, Nat.le_refl _, nofun⟩

/-- A send as the image gives it lets the next one start. -/
theorem sendOpAt_state_le (n : Nat) :
    SendState.readingCompletion ≤ Operation.state (sendOpAt ptrs lengths k n) := by
  show SendState.readingCompletion ≤ (sendOpAt ptrs lengths k n).state
  rw [sendOpAt]
  by_cases hopen : travels lengths n = true ∧ k ≤ indexOf (travels lengths) n
  · rw [if_pos hopen]
    exact Nat.le_refl 1
  · rw [if_neg hopen]
    exact Nat.le_succ 1

/-- A new send goes out at once, or is done at once if it is empty. -/
theorem sendImage_submit (h : SendImage describe lengths ptrs k x) (ptr : Nat) :
    SendImage describe lengths (Function.update ptrs x.next ptr) k
      (x.submit (advanceSendOperation describe false)
        { sequenceNumber := x.next, ptr, length := lengths x.next }) := by
  have hopen : SendState.uninitialized ≠ .finished := nofun
  have hsame : ∀ n < x.next, sendOpAt (Function.update ptrs x.next ptr) lengths k n
      = sendOpAt ptrs lengths k n := by
    intro n hn
    simp only [sendOpAt, Function.update_of_ne (Nat.ne_of_lt hn)]
  have hdescriptors : (numbersBelow (travels lengths) x.next).map
      (fun n => (n, describe (Function.update ptrs x.next ptr n)))
        = (numbersBelow (travels lengths) x.next).map (fun n => (n, describe (ptrs n))) := by
    refine List.map_congr_left (fun n hn => ?_)
    have hlt := List.mem_range.mp (List.mem_filter.mp hn).1
    rw [Function.update_of_ne (Nat.ne_of_lt hlt)]
  by_cases hlength : lengths x.next = 0
  · have htravels : ¬ travels lengths x.next = true := by simp [travels, hlength]
    rw [submit_image (sendOpAt ptrs lengths k)
      (sendOpAt (Function.update ptrs x.next ptr) lengths k)
      (x.io.callback x.next false) (fun _ => rfl) (fun _ => rfl) h.ops rfl hopen ?_ hsame]
    · have hbound := h.bound
      refine ⟨rfl, ?_, ?_, ?_, ?_⟩
      · rw [numbersBelow_succ, if_neg htravels, List.append_nil, hdescriptors]
        exact h.descriptors
      · rw [numbersBelow_succ, if_neg htravels, List.append_nil]
        exact h.completions
      · rw [indexOf_succ, if_neg htravels]
        exact hbound
      · intro n error hmem hn
        rcases List.mem_append.mp hmem with hold | hnew
        · exact h.callbacks n error hold hn
        · obtain ⟨rfl, -⟩ := Prod.mk.inj (List.mem_singleton.mp hnew)
          exact absurd hn htravels
    · rw [hlength, sendTransition_empty]
      simp [sendOpAt, travels, hlength]
  · have htravels : travels lengths x.next = true := by simp [travels, hlength]
    have hbound := h.bound
    rw [submit_image (sendOpAt ptrs lengths k)
      (sendOpAt (Function.update ptrs x.next ptr) lengths k)
      ((x.io.issue (.writeDescriptor x.next (describe ptr))).issue (.readCompletion x.next))
      (fun _ => rfl) (fun _ => rfl) h.ops rfl hopen ?_ hsame]
    · refine ⟨rfl, ?_, ?_, ?_, h.callbacks⟩
      · show ((x.io.issued ++ [_]) ++ [_]).filterMap _ = _
        rw [List.filterMap_append, List.filterMap_append, h.descriptors, numbersBelow_succ,
          if_pos htravels, List.map_append, hdescriptors]
        simp [SendCall.descriptor?]
      · show ((x.io.issued ++ [_]) ++ [_]).filterMap _ = _
        rw [List.filterMap_append, List.filterMap_append, h.completions, numbersBelow_succ,
          if_pos htravels]
        simp [SendCall.completionRead?]
      · rw [indexOf_succ, if_pos htravels]
        omega
    · rw [sendTransition_start (lastState_image (P := fun st => SendState.readingCompletion ≤ st)
        (by decide) (fun n _ => sendOpAt_state_le n)) hlength]
      have hnot : ¬ indexOf (travels lengths) x.next < k := by omega
      simp [sendOpAt, htravels, hbound, hnot]

variable [DecidableEq D]

omit [DecidableEq D] in
/-- The next completion finishes one send and leaves the others. -/
theorem sendOpAt_next {n m : Nat} (hn : indexOf (travels lengths) n = k)
    (htravels : travels lengths n = true) (hne : m ≠ n) :
    sendOpAt ptrs lengths (k + 1) m = sendOpAt ptrs lengths k m := by
  by_cases hm : travels lengths m = true
  · have hindex : indexOf (travels lengths) m ≠ k :=
      fun heq => hne (indexOf_inj hm htravels (heq.trans hn.symm))
    have hle : k + 1 ≤ indexOf (travels lengths) m ↔ k ≤ indexOf (travels lengths) m := by omega
    have hlt : indexOf (travels lengths) m < k + 1 ↔ indexOf (travels lengths) m < k := by omega
    simp only [sendOpAt, hle, hlt]
  · have hempty : travels lengths m = false := Bool.eq_false_iff.mpr hm
    simp [sendOpAt, hempty]

/-- The next completion finishes the operation whose turn it is. -/
theorem sendImage_report (h : SendImage describe lengths ptrs k x) {n : Nat}
    (hn : (numbersBelow (travels lengths) x.next)[k]? = some n) :
    SendImage describe lengths ptrs (k + 1)
      (x.report (advanceSendOperation describe false) (.readCompletion n) n
        (fun op => { op with doneReadingCompletion := true })) := by
  obtain ⟨hlt, htravels, hindex⟩ := numbersBelow_getElem?.mp hn
  have hstate : (sendOpAt ptrs lengths k n).state = .readingCompletion := by
    simp [sendOpAt, htravels, hindex]
  rw [report_image (sendOpAt ptrs lengths k) (sendOpAt ptrs lengths (k + 1))
    ((x.io.reported (.readCompletion n)).callback n false) (fun _ => rfl) (fun _ => rfl)
    h.ops hlt ?_ rfl rfl (sendOpAt_settled describe ptrs lengths k) ?_
    (fun m hne => sendOpAt_next hindex htravels hne)]
  · refine ⟨rfl, h.descriptors, h.completions, ?_, ?_⟩
    · have := indexOf_lt hlt htravels
      show k + 1 ≤ indexOf (travels lengths) x.next
      omega
    · intro m error hmem hm
      rcases List.mem_append.mp hmem with hold | hnew
      · exact Nat.lt_succ_of_lt (h.callbacks m error hold hm)
      · obtain ⟨rfl, -⟩ := Prod.mk.inj (List.mem_singleton.mp hnew)
        omega
  · exact fun hfin => (nomatch hstate.symm.trans hfin)
  · rw [sendTransition_finish (by exact hstate) rfl]
    simp [sendOpAt, htravels, hindex]

end Sender

-- ── The receiver as an image ─────────────────────────────────────────────────

section Receiver

variable {D : Type} {lengths ptrs : Nat → Nat} {remotes : Nat → Option D} {kd kc : Nat}
  {x : Side (RecvOperation D) (RecvCall D)}

/-- The n-th receive operation after `kd` descriptors and `kc` copies. -/
def recvOpAt (ptrs lengths : Nat → Nat) (remotes : Nat → Option D) (kd kc n : Nat) :
    RecvOperation D where
  sequenceNumber := n
  state := if travels lengths n = true ∧ kd ≤ indexOf (travels lengths) n then .readingDescriptor
    else if travels lengths n = true ∧ kc ≤ indexOf (travels lengths) n then .copying
    else .finished
  ptr := ptrs n
  length := lengths n
  doneReadingDescriptor := travels lengths n && decide (indexOf (travels lengths) n < kd)
  remote := remotes n
  doneCopying := travels lengths n && decide (indexOf (travels lengths) n < kc)

/-- The receiving side, read off the numbers of descriptors and copies that have come. -/
structure RecvImage (lengths ptrs : Nat → Nat) (remotes : Nat → Option D) (kd kc : Nat)
    (x : Side (RecvOperation D) (RecvCall D)) : Prop where
  ops : x.ops = popFinished (image (recvOpAt ptrs lengths remotes kd kc) x.next)
  reads : x.io.issued.filterMap RecvCall.descriptorRead? = numbersBelow (travels lengths) x.next
  copies : (x.io.issued.filterMap RecvCall.copy?).map Prod.fst
    = (numbersBelow (travels lengths) x.next).take kd
  completions : x.io.issued.filterMap RecvCall.completion?
    = (numbersBelow (travels lengths) x.next).take kc
  ordered : kc ≤ kd
  bound : kd ≤ indexOf (travels lengths) x.next

/-- A receive as the image gives it cannot advance. -/
theorem recvOpAt_settled (n : Nat) :
    Settled (advanceRecvOperation false) (recvOpAt ptrs lengths remotes kd kc n) := by
  rintro prev ⟨t, ht, hsource, hcond⟩
  simp only [advanceRecvOperation, List.mem_cons, List.not_mem_nil, or_false] at ht
  have hstate : (recvOpAt ptrs lengths remotes kd kc n).state = t.source := hsource
  by_cases hreading : travels lengths n = true ∧ kd ≤ indexOf (travels lengths) n
  · simp only [recvOpAt, if_pos hreading] at hstate
    rcases ht with rfl | rfl | rfl | rfl | rfl | rfl
    · exact absurd hstate (by simp)
    · exact absurd hstate (by simp)
    · exact absurd hcond (by simp)
    · have hdone : (travels lengths n && decide (indexOf (travels lengths) n < kd)) = true := hcond
      rw [hreading.1, Bool.true_and, decide_eq_true_iff] at hdone
      omega
    · exact absurd hstate (by simp)
    · exact absurd hstate (by simp)
  by_cases hcopying : travels lengths n = true ∧ kc ≤ indexOf (travels lengths) n
  · simp only [recvOpAt, if_neg hreading, if_pos hcopying] at hstate
    rcases ht with rfl | rfl | rfl | rfl | rfl | rfl
    · exact absurd hstate (by simp)
    · exact absurd hstate (by simp)
    · exact absurd hstate (by simp)
    · exact absurd hstate (by simp)
    · exact absurd hcond (by simp)
    · have hdone : (travels lengths n && decide (indexOf (travels lengths) n < kc)) = true :=
        (Bool.and_eq_true_iff.mp hcond).1
      rw [hcopying.1, Bool.true_and, decide_eq_true_iff] at hdone
      omega
  · simp only [recvOpAt, if_neg hreading, if_neg hcopying] at hstate
    rcases ht with rfl | rfl | rfl | rfl | rfl | rfl
    all_goals exact absurd hstate (by simp)

/-- A receive without bytes finishes at once. -/
theorem recvTransition_empty {prev : RecvState} {io : Io (RecvCall D)} {n ptr : Nat} :
    transition (advanceRecvOperation false) prev (io, { sequenceNumber := n, ptr, length := 0 })
      = .returns (io.callback n false,
        { sequenceNumber := n, state := .finished, ptr, length := 0 }) := by
  simp [advanceRecvOperation, transition, attemptTransition, runActions, Operation.state,
    callRecvCallback, withState]

/-- A receive with bytes reads its descriptor. -/
theorem recvTransition_start {prev : RecvState} (hprev : RecvState.readingDescriptor ≤ prev)
    {io : Io (RecvCall D)} {n ptr length : Nat} (hlength : length ≠ 0) :
    transition (advanceRecvOperation false) prev (io, { sequenceNumber := n, ptr, length })
      = .returns (io.issue (.readDescriptor n),
        { sequenceNumber := n, state := .readingDescriptor, ptr, length }) := by
  simp [advanceRecvOperation, transition, attemptTransition, runActions, Operation.state,
    readDescriptor, withState, hlength, hprev]

/-- A receive whose descriptor was read asks for the copy. -/
theorem recvTransition_copy {prev : RecvState} {io : Io (RecvCall D)} {op : RecvOperation D}
    (hstate : op.state = .readingDescriptor) (hdone : op.doneReadingDescriptor = true)
    (hcopied : op.doneCopying = false) :
    transition (advanceRecvOperation false) prev (io, op)
      = .returns (io.issue (.requestCopy op.sequenceNumber op.remote op.ptr op.length),
        { op with state := .copying }) := by
  simp [advanceRecvOperation, transition, attemptTransition, runActions, Operation.state,
    copy, withState, hstate, hdone, hcopied]

/-- A receive whose copy was made writes the completion and finishes. -/
theorem recvTransition_finish {io : Io (RecvCall D)} {op : RecvOperation D}
    (hstate : op.state = .copying) (hdone : op.doneCopying = true) :
    transition (advanceRecvOperation false) RecvState.finished (io, op)
      = .returns ((io.callback op.sequenceNumber false).issue (.writeCompletion op.sequenceNumber),
        { op with state := .finished }) := by
  have hle : RecvState.finished ≤ RecvState.finished := by decide
  simp [advanceRecvOperation, transition, attemptTransition, runActions, Operation.state,
    callRecvCallback, writeCompletion, withState, hstate, hdone, hle]

/-- A side without receives. -/
theorem recvImage_empty : RecvImage lengths ptrs remotes 0 0 {} :=
  ⟨rfl, rfl, rfl, rfl, Nat.le_refl _, Nat.le_refl _⟩

/-- A receive as the image gives it lets the next one start. -/
theorem recvOpAt_state_le (n : Nat) :
    RecvState.readingDescriptor ≤ Operation.state (recvOpAt ptrs lengths remotes kd kc n) := by
  show RecvState.readingDescriptor ≤ (recvOpAt ptrs lengths remotes kd kc n).state
  rw [recvOpAt]
  by_cases hreading : travels lengths n = true ∧ kd ≤ indexOf (travels lengths) n
  · rw [if_pos hreading]
    exact Nat.le_refl 1
  rw [if_neg hreading]
  by_cases hcopying : travels lengths n = true ∧ kc ≤ indexOf (travels lengths) n
  · rw [if_pos hcopying]
    exact Nat.le_succ 1
  · rw [if_neg hcopying]
    exact Nat.le_add_left 1 2

/-- Taking no more than there was does not notice what is added. -/
theorem take_numbersBelow {i : Nat} (hi : i ≤ indexOf (travels lengths) x.next) :
    (numbersBelow (travels lengths) (x.next + 1)).take i
      = (numbersBelow (travels lengths) x.next).take i := by
  rw [numbersBelow_succ, List.take_append_of_le_length hi]

/-- A new receive is the last of the image. -/
theorem recvImage_submit (h : RecvImage lengths ptrs remotes kd kc x) (ptr : Nat) :
    RecvImage lengths (Function.update ptrs x.next ptr) (Function.update remotes x.next none) kd kc
      (x.submit (advanceRecvOperation false)
        { sequenceNumber := x.next, ptr, length := lengths x.next }) := by
  have hbound := h.bound
  have hordered := h.ordered
  have hopen : RecvState.uninitialized ≠ .finished := nofun
  have hsame : ∀ n < x.next, recvOpAt (Function.update ptrs x.next ptr) lengths
      (Function.update remotes x.next none) kd kc n = recvOpAt ptrs lengths remotes kd kc n := by
    intro n hn
    simp only [recvOpAt, Function.update_of_ne (Nat.ne_of_lt hn)]
  by_cases hlength : lengths x.next = 0
  · have htravels : ¬ travels lengths x.next = true := by simp [travels, hlength]
    rw [submit_image (recvOpAt ptrs lengths remotes kd kc)
      (recvOpAt (Function.update ptrs x.next ptr) lengths
        (Function.update remotes x.next none) kd kc)
      (x.io.callback x.next false) (fun _ => rfl) (fun _ => rfl) h.ops rfl hopen ?_ hsame]
    · refine ⟨rfl, ?_, ?_, ?_, hordered, ?_⟩
      · rw [numbersBelow_succ, if_neg htravels, List.append_nil]
        exact h.reads
      · rw [take_numbersBelow hbound]
        exact h.copies
      · rw [take_numbersBelow (Nat.le_trans hordered hbound)]
        exact h.completions
      · rw [indexOf_succ, if_neg htravels]
        exact hbound
    · rw [hlength, recvTransition_empty]
      simp [recvOpAt, travels, hlength]
  · have htravels : travels lengths x.next = true := by simp [travels, hlength]
    rw [submit_image (recvOpAt ptrs lengths remotes kd kc)
      (recvOpAt (Function.update ptrs x.next ptr) lengths
        (Function.update remotes x.next none) kd kc)
      (x.io.issue (.readDescriptor x.next)) (fun _ => rfl) (fun _ => rfl) h.ops rfl hopen ?_
      hsame]
    · refine ⟨rfl, ?_, ?_, ?_, hordered, ?_⟩
      · show (x.io.issued ++ [_]).filterMap _ = _
        rw [List.filterMap_append, h.reads, numbersBelow_succ, if_pos htravels]
        rfl
      · show ((x.io.issued ++ [_]).filterMap _).map _ = _
        rw [take_numbersBelow hbound, List.filterMap_append, List.map_append, h.copies]
        simp [RecvCall.copy?]
      · show (x.io.issued ++ [_]).filterMap _ = _
        rw [take_numbersBelow (Nat.le_trans hordered hbound), List.filterMap_append, h.completions]
        simp [RecvCall.completion?]
      · rw [indexOf_succ, if_pos htravels]
        omega
    · rw [recvTransition_start (lastState_image (P := fun st => RecvState.readingDescriptor ≤ st)
        (show RecvState.readingDescriptor ≤ .finished by decide)
        (fun n _ => recvOpAt_state_le n)) hlength]
      have hdescriptor : ¬ indexOf (travels lengths) x.next < kd := by omega
      have hcopy : ¬ indexOf (travels lengths) x.next < kc := by omega
      simp [recvOpAt, htravels, hbound, hdescriptor, hcopy]

variable [DecidableEq D]

omit [DecidableEq D] in
/-- Adding the number whose turn it is to the ones taken so far. -/
theorem take_succ_numbersBelow {next i n : Nat}
    (hn : (numbersBelow (travels lengths) next)[i]? = some n) :
    (numbersBelow (travels lengths) next).take (i + 1)
      = (numbersBelow (travels lengths) next).take i ++ [n] := by
  rw [List.take_add_one, hn]
  rfl

/-- The next descriptor starts the copy of the operation whose turn it is. -/
theorem recvImage_descriptor (h : RecvImage lengths ptrs remotes kd kc x) {n : Nat}
    (hn : (numbersBelow (travels lengths) x.next)[kd]? = some n) (descriptor : D) :
    RecvImage lengths ptrs (Function.update remotes n (some descriptor)) (kd + 1) kc
      (x.report (advanceRecvOperation false) (.readDescriptor n) n
        (fun op => { op with doneReadingDescriptor := true, remote := some descriptor })) := by
  obtain ⟨hlt, htravels, hindex⟩ := numbersBelow_getElem?.mp hn
  have hordered := h.ordered
  have hstate : (recvOpAt ptrs lengths remotes kd kc n).state = .readingDescriptor := by
    simp [recvOpAt, htravels, hindex]
  have hcopied : (recvOpAt ptrs lengths remotes kd kc n).doneCopying = false := by
    have hnot : ¬ kd < kc := by omega
    simp [recvOpAt, hindex, hnot]
  have hsame : ∀ m, m ≠ n → recvOpAt ptrs lengths (Function.update remotes n (some descriptor))
      (kd + 1) kc m = recvOpAt ptrs lengths remotes kd kc m := by
    intro m hne
    by_cases hm : travels lengths m = true
    · have hother : indexOf (travels lengths) m ≠ kd :=
        fun heq => hne (indexOf_inj hm htravels (heq.trans hindex.symm))
      have hle : kd + 1 ≤ indexOf (travels lengths) m ↔ kd ≤ indexOf (travels lengths) m := by
        omega
      have hless : indexOf (travels lengths) m < kd + 1 ↔ indexOf (travels lengths) m < kd := by
        omega
      simp only [recvOpAt, hle, hless, Function.update_of_ne hne]
    · have hempty : travels lengths m = false := Bool.eq_false_iff.mpr hm
      simp [recvOpAt, hempty, Function.update_of_ne hne]
  rw [report_image (recvOpAt ptrs lengths remotes kd kc)
    (recvOpAt ptrs lengths (Function.update remotes n (some descriptor)) (kd + 1) kc)
    ((x.io.reported (.readDescriptor n)).issue
      (.requestCopy n (some descriptor) (ptrs n) (lengths n)))
    (fun _ => rfl) (fun _ => rfl) h.ops hlt ?_ rfl rfl recvOpAt_settled ?_ hsame]
  · refine ⟨rfl, ?_, ?_, ?_, Nat.le_succ_of_le hordered, ?_⟩
    · show (x.io.issued ++ [_]).filterMap _ = _
      rw [List.filterMap_append, h.reads]
      simp [RecvCall.descriptorRead?]
    · show ((x.io.issued ++ [_]).filterMap _).map _ = _
      rw [List.filterMap_append, List.map_append, h.copies, take_succ_numbersBelow hn]
      rfl
    · show (x.io.issued ++ [_]).filterMap _ = _
      rw [List.filterMap_append, h.completions]
      simp [RecvCall.completion?]
    · have := indexOf_lt hlt htravels
      show kd + 1 ≤ indexOf (travels lengths) x.next
      omega
  · exact fun hfin => (nomatch hstate.symm.trans hfin)
  · rw [recvTransition_copy (by exact hstate) rfl (by exact hcopied)]
    have hnot : ¬ kd < kc := by omega
    simp [recvOpAt, htravels, hindex, hordered, hnot]

/-- The next copy finishes the operation whose turn it is: all before it are finished. -/
theorem recvImage_copied (h : RecvImage lengths ptrs remotes kd kc x) {n : Nat}
    (hn : ((numbersBelow (travels lengths) x.next).take kd)[kc]? = some n)
    (call : RecvCall D) :
    RecvImage lengths ptrs remotes kd (kc + 1)
      (x.report (advanceRecvOperation false) call n
        (fun op => { op with doneCopying := true })) := by
  have hkc : kc < kd := by
    obtain ⟨hi, -⟩ := List.getElem?_eq_some_iff.mp hn
    exact Nat.lt_of_lt_of_le hi (List.length_take_le _ _)
  rw [List.getElem?_take_of_lt hkc] at hn
  obtain ⟨hlt, htravels, hindex⟩ := numbersBelow_getElem?.mp hn
  have hstate : (recvOpAt ptrs lengths remotes kd kc n).state = .copying := by
    have hnot : ¬ kd ≤ kc := by omega
    simp [recvOpAt, htravels, hindex, hnot]
  have hprev : lastState (finished (RecvOperation D))
      (image (recvOpAt ptrs lengths remotes kd kc) n) = .finished := by
    refine lastState_image (P := fun st => st = RecvState.finished) rfl (fun m hm => ?_)
    show (recvOpAt ptrs lengths remotes kd kc m).state = .finished
    by_cases hmt : travels lengths m = true
    · have hless := indexOf_lt hm hmt
      have hnotd : ¬ kd ≤ indexOf (travels lengths) m := by omega
      have hnotc : ¬ kc ≤ indexOf (travels lengths) m := by omega
      simp [recvOpAt, hnotd, hnotc]
    · have hempty : travels lengths m = false := Bool.eq_false_iff.mpr hmt
      simp [recvOpAt, hempty]
  have hsame : ∀ m, m ≠ n → recvOpAt ptrs lengths remotes kd (kc + 1) m
      = recvOpAt ptrs lengths remotes kd kc m := by
    intro m hne
    by_cases hm : travels lengths m = true
    · have hother : indexOf (travels lengths) m ≠ kc :=
        fun heq => hne (indexOf_inj hm htravels (heq.trans hindex.symm))
      have hle : kc + 1 ≤ indexOf (travels lengths) m ↔ kc ≤ indexOf (travels lengths) m := by
        omega
      have hless : indexOf (travels lengths) m < kc + 1 ↔ indexOf (travels lengths) m < kc := by
        omega
      simp only [recvOpAt, hle, hless]
    · have hempty : travels lengths m = false := Bool.eq_false_iff.mpr hm
      simp [recvOpAt, hempty]
  rw [report_image (recvOpAt ptrs lengths remotes kd kc)
    (recvOpAt ptrs lengths remotes kd (kc + 1))
    (((x.io.reported call).callback n false).issue (.writeCompletion n))
    (fun _ => rfl) (fun _ => rfl) h.ops hlt ?_ rfl rfl recvOpAt_settled ?_ hsame]
  · refine ⟨rfl, ?_, ?_, ?_, hkc, h.bound⟩
    · show (x.io.issued ++ [_]).filterMap _ = _
      rw [List.filterMap_append, h.reads]
      simp [RecvCall.descriptorRead?]
    · show ((x.io.issued ++ [_]).filterMap _).map _ = _
      rw [List.filterMap_append, List.map_append, h.copies]
      simp [RecvCall.copy?]
    · show (x.io.issued ++ [_]).filterMap _ = _
      rw [List.filterMap_append, h.completions, take_succ_numbersBelow hn]
      rfl
  · exact fun hfin => (nomatch hstate.symm.trans hfin)
  · rw [hprev, recvTransition_finish (by exact hstate) rfl]
    have hnot : ¬ kd ≤ kc := by omega
    simp [recvOpAt, htravels, hindex, hnot, hkc]

end Receiver

-- ── The invariant of a link ──────────────────────────────────────────────────

section LinkInvariant

variable {D : Type} {describe : Nat → D} {lengths : Nat → Nat}
  {send : Side SendOperation (SendCall D)} {recv : Side (RecvOperation D) (RecvCall D)} {l : Link}

/-- Both ends of a link are images of its counters, which follow each other: descriptors
    read, copies finished, copies reported, completions read. -/
structure LinkInv (describe : Nat → D) (lengths : Nat → Nat)
    (send : Side SendOperation (SendCall D)) (recv : Side (RecvOperation D) (RecvCall D))
    (l : Link) : Prop where
  sender : ∃ ptrs, SendImage describe lengths ptrs l.completionsRead.length send
  receiver : ∃ ptrs remotes, RecvImage lengths ptrs remotes l.descriptorsRead.length
    l.copiesReported recv
  copied : l.copied = (numbersBelow (travels lengths) recv.next).take l.copied.length
  started : l.copied.length ≤ l.descriptorsRead.length
  reported : l.copiesReported ≤ l.copied.length
  completed : l.completionsRead.length ≤ l.copiesReported
  descriptors : ∀ nm ∈ l.descriptorsRead, nm.1 = nm.2
  completions : ∀ nm ∈ l.completionsRead, nm.1 = nm.2

/-- A call of `send` keeps the invariant of the direction. -/
theorem linkInv_send (h : LinkInv describe lengths send recv l) (ptr : Nat) :
    LinkInv describe lengths (send.submit (advanceSendOperation describe false)
      { sequenceNumber := send.next, ptr, length := lengths send.next }) recv l := by
  obtain ⟨ptrs, himage⟩ := h.sender
  exact { h with sender := ⟨_, sendImage_submit himage ptr⟩ }

/-- A call of `recv` keeps the invariant of the direction. -/
theorem linkInv_recv (h : LinkInv describe lengths send recv l) (ptr : Nat) :
    LinkInv describe lengths send (recv.submit (advanceRecvOperation false)
      { sequenceNumber := recv.next, ptr, length := lengths recv.next }) l := by
  obtain ⟨ptrs, remotes, himage⟩ := h.receiver
  refine { h with receiver := ⟨_, _, recvImage_submit himage ptr⟩, copied := ?_ }
  have hbound : l.copied.length ≤ indexOf (travels lengths) recv.next :=
    Nat.le_trans h.started himage.bound
  show l.copied = (numbersBelow (travels lengths) (recv.next + 1)).take l.copied.length
  rw [take_numbersBelow hbound]
  exact h.copied

/-- A copy that is made keeps the invariant of the direction. -/
theorem linkInv_copied (h : LinkInv describe lengths send recv l)
    {copy : Nat × Option D × Nat × Nat}
    (hcopy : (recv.io.issued.filterMap RecvCall.copy?)[l.copied.length]? = some copy) :
    LinkInv describe lengths send recv { l with copied := l.copied ++ [copy.1] } := by
  obtain ⟨ptrs, remotes, himage⟩ := h.receiver
  have hn : ((numbersBelow (travels lengths) recv.next).take l.descriptorsRead.length)[
      l.copied.length]? = some copy.1 := by
    rw [← himage.copies, List.getElem?_map, hcopy]
    rfl
  have hlt : l.copied.length < l.descriptorsRead.length := by
    obtain ⟨hi, -⟩ := List.getElem?_eq_some_iff.mp hn
    exact Nat.lt_of_lt_of_le hi (List.length_take_le _ _)
  rw [List.getElem?_take_of_lt hlt] at hn
  have hlength : (l.copied ++ [copy.1]).length = l.copied.length + 1 := List.length_append
  refine { h with copied := ?_, started := ?_, reported := ?_ }
  · show l.copied ++ [copy.1] = _
    rw [hlength, take_succ_numbersBelow hn, ← h.copied]
  · show (l.copied ++ [copy.1]).length ≤ _
    rw [hlength]
    exact hlt
  · show _ ≤ (l.copied ++ [copy.1]).length
    rw [hlength]
    exact Nat.le_succ_of_le h.reported

variable [DecidableEq D]

/-- A write that has completed changes nothing of the image. -/
theorem sendImage_forget {ptrs : Nat → Nat} {k : Nat} (call : SendCall D)
    (h : SendImage describe lengths ptrs k send) :
    SendImage describe lengths ptrs k (send.forget call) :=
  ⟨h.ops, h.descriptors, h.completions, h.bound, h.callbacks⟩

/-- Reading a descriptor keeps the invariant of the direction. -/
theorem linkInv_descriptorRead (h : LinkInv describe lengths send recv l) {n m : Nat}
    {descriptor : D}
    (hread : (recv.io.issued.filterMap RecvCall.descriptorRead?)[l.descriptorsRead.length]?
      = some n)
    (hframe : (send.io.issued.filterMap SendCall.descriptor?)[l.descriptorsRead.length]?
      = some (m, descriptor)) :
    LinkInv describe lengths send
      (recv.report (advanceRecvOperation false) (.readDescriptor n) n
        (fun op => { op with doneReadingDescriptor := true, remote := some descriptor }))
      { l with descriptorsRead := l.descriptorsRead ++ [(n, m)] } := by
  obtain ⟨ptrs, hsend⟩ := h.sender
  obtain ⟨ptrs', remotes, hrecv⟩ := h.receiver
  rw [hrecv.reads] at hread
  rw [hsend.descriptors, List.getElem?_map, Option.map_eq_some_iff] at hframe
  obtain ⟨m', hm', hpair⟩ := hframe
  obtain ⟨rfl, -⟩ := Prod.mk.inj hpair
  have hlength : (l.descriptorsRead ++ [(n, m')]).length = l.descriptorsRead.length + 1 :=
    List.length_append
  have himage := recvImage_descriptor hrecv hread descriptor
  rw [← hlength] at himage
  refine { h with
    receiver := ⟨_, _, himage⟩, copied := h.copied, started := ?_, descriptors := ?_ }
  · show _ ≤ (l.descriptorsRead ++ [(n, m')]).length
    rw [hlength]
    exact Nat.le_succ_of_le h.started
  · intro nm hmem
    rcases List.mem_append.mp hmem with hold | hnew
    · exact h.descriptors nm hold
    · rw [List.mem_singleton.mp hnew]
      exact numbersBelow_agree hread hm'

/-- The report of a copy keeps the invariant of the direction. -/
theorem linkInv_copyReported (h : LinkInv describe lengths send recv l) {n ptr length : Nat}
    {remote : Option D}
    (hcopy : (recv.io.issued.filterMap RecvCall.copy?)[l.copiesReported]?
      = some (n, remote, ptr, length)) (hlt : l.copiesReported < l.copied.length) :
    LinkInv describe lengths send
      (recv.report (advanceRecvOperation false) (.requestCopy n remote ptr length) n
        (fun op => { op with doneCopying := true }))
      { l with copiesReported := l.copiesReported + 1 } := by
  obtain ⟨ptrs, remotes, himage⟩ := h.receiver
  have hn : ((numbersBelow (travels lengths) recv.next).take l.descriptorsRead.length)[
      l.copiesReported]? = some n := by
    rw [← himage.copies, List.getElem?_map, hcopy]
    rfl
  exact { h with
    receiver := ⟨_, _, recvImage_copied himage hn _⟩
    copied := h.copied
    reported := hlt
    completed := Nat.le_succ_of_le h.completed }

/-- Reading a completion keeps the invariant of the direction. -/
theorem linkInv_completionRead (h : LinkInv describe lengths send recv l) {n m : Nat}
    (hread : (send.io.issued.filterMap SendCall.completionRead?)[l.completionsRead.length]?
      = some n)
    (hframe : (recv.io.issued.filterMap RecvCall.completion?)[l.completionsRead.length]?
      = some m) :
    LinkInv describe lengths
      (send.report (advanceSendOperation describe false) (.readCompletion n) n
        (fun op => { op with doneReadingCompletion := true })) recv
      { l with completionsRead := l.completionsRead ++ [(n, m)] } := by
  obtain ⟨ptrs, hsend⟩ := h.sender
  obtain ⟨ptrs', remotes, hrecv⟩ := h.receiver
  rw [hsend.completions] at hread
  rw [hrecv.completions] at hframe
  have hlt : l.completionsRead.length < l.copiesReported := by
    obtain ⟨hi, -⟩ := List.getElem?_eq_some_iff.mp hframe
    exact Nat.lt_of_lt_of_le hi (List.length_take_le _ _)
  rw [List.getElem?_take_of_lt hlt] at hframe
  have hlength : (l.completionsRead ++ [(n, m)]).length = l.completionsRead.length + 1 :=
    List.length_append
  have himage := sendImage_report hsend hread
  rw [← hlength] at himage
  refine { h with sender := ⟨_, himage⟩, completed := ?_, completions := ?_ }
  · show (l.completionsRead ++ [(n, m)]).length ≤ _
    rw [hlength]
    exact hlt
  · intro nm hmem
    rcases List.mem_append.mp hmem with hold | hnew
    · exact h.completions nm hold
    · rw [List.mem_singleton.mp hnew]
      exact numbersBelow_agree hread hframe

/-- A descriptor that was written keeps the invariant of the direction. -/
theorem linkInv_descriptorWritten (h : LinkInv describe lengths send recv l) (call : SendCall D) :
    LinkInv describe lengths (send.forget call) recv l := by
  obtain ⟨ptrs, himage⟩ := h.sender
  exact { h with sender := ⟨ptrs, sendImage_forget call himage⟩ }

/-- A completion that was written keeps the invariant of the direction. -/
theorem linkInv_completionWritten (h : LinkInv describe lengths send recv l) (call : RecvCall D) :
    LinkInv describe lengths send (recv.forget call) l := by
  obtain ⟨ptrs, remotes, himage⟩ := h.receiver
  exact { h with
    receiver := ⟨ptrs, remotes, himage.ops, himage.reads, himage.copies, himage.completions,
      himage.ordered, himage.bound⟩ }

end LinkInvariant

-- ── The invariant of the pair ────────────────────────────────────────────────

namespace Pair

variable {D : Type} {describe : Bool → Nat → D} {lengths : Bool → Nat → Nat} {p p' : Pair D}

/-- No errors, and both links in order. -/
def Inv (describe : Bool → Nat → D) (lengths : Bool → Nat → Nat) (p : Pair D) : Prop :=
  ∀ d, (p.channel d).error = false ∧
    LinkInv (describe d) (lengths d) (p.channel d).send (p.channel !d).recv (p.link d)

/-- Two new ends satisfy the invariant. -/
theorem inv_empty : Inv describe lengths {} := by
  intro d
  refine ⟨rfl, ⟨fun _ => 0, sendImage_empty⟩, ⟨fun _ => 0, fun _ => none, ?_⟩, ?_, ?_, ?_, ?_, ?_, ?_⟩
  · exact recvImage_empty
  · rfl
  · exact Nat.le_refl 0
  · exact Nat.le_refl 0
  · exact Nat.le_refl 0
  · nofun
  · nofun

variable [DecidableEq D]

/-- A task of the sending half of channel `d` concerns the link `d` only. -/
theorem inv_sender (h : Inv describe lengths p) {d : Bool} {task : Task D} {l : Link}
    {send : Side SendOperation (SendCall D)}
    (hstep : (p.channel d).step (describe d) task = { p.channel d with send })
    (hlink : LinkInv (describe d) (lengths d) send (p.channel !d).recv l) :
    Inv describe lengths (p.act describe d task d l) := by
  intro e
  obtain ⟨herror, hold⟩ := h e
  by_cases he : e = d
  · subst he
    have hother : ¬ (!e) = e := by cases e <;> nofun
    simp only [act, if_true, if_neg hother, hstep]
    exact ⟨herror, hlink⟩
  · have hother : (!e) = d := by cases e <;> cases d <;> first | rfl | exact absurd rfl he
    rw [← hother] at hstep
    simp only [act, if_neg he, if_pos hother, hstep]
    exact ⟨herror, hold⟩

/-- A task of the receiving half of channel `!d` concerns the link `d` only. -/
theorem inv_receiver (h : Inv describe lengths p) {d : Bool} {task : Task D} {l : Link}
    {recv : Side (RecvOperation D) (RecvCall D)}
    (hstep : (p.channel !d).step (describe !d) task = { p.channel !d with recv })
    (hlink : LinkInv (describe d) (lengths d) (p.channel d).send recv l) :
    Inv describe lengths (p.act describe (!d) task d l) := by
  intro e
  obtain ⟨herror, hold⟩ := h e
  by_cases he : e = d
  · subst he
    have hother : ¬ e = !e := by cases e <;> nofun
    simp only [act, if_true, if_neg hother, hstep]
    exact ⟨herror, hlink⟩
  · have hother : e = !d := by cases e <;> cases d <;> first | rfl | exact absurd rfl he
    have hback : ¬ (!e) = !d := by rw [← hother]; cases e <;> nofun
    rw [← hother] at hstep
    simp only [act, if_neg he, if_pos hother, if_neg hback, hstep]
    exact ⟨herror, hold⟩

/-- A callback of the sending side without an error. -/
theorem step_sendReport {x : ChannelImpl D} (herror : x.error = false) (describe : Nat → D)
    (call : SendCall D) :
    x.step describe (.sendReport call false) = ChannelImpl.onSendReport describe call x := by
  rw [ChannelImpl.step, ChannelImpl.setError, herror]
  rfl

/-- A callback of the receiving side without an error. -/
theorem step_recvReport {x : ChannelImpl D} (herror : x.error = false) (describe : Nat → D)
    (call : RecvCall D) (descriptor : D) :
    x.step describe (.recvReport call false descriptor)
      = ChannelImpl.onRecvReport call descriptor x := by
  rw [ChannelImpl.step, ChannelImpl.setError, herror]
  rfl

/-- Every step keeps the invariant. -/
theorem inv_step (h : Inv describe lengths p) (event : Event)
    (hstep : p.step describe lengths event = some p') : Inv describe lengths p' := by
  cases event with
  | send d ptr =>
      obtain ⟨herror, hlink⟩ := h d
      obtain rfl := Option.some.inj hstep
      refine inv_sender h ?_ (linkInv_send hlink ptr)
      simp [ChannelImpl.step, ChannelImpl.sendFromLoop, herror]
  | recv d ptr =>
      have herror := (h !d).1
      obtain rfl := Option.some.inj hstep
      refine inv_receiver h ?_ (linkInv_recv (h d).2 ptr)
      simp [ChannelImpl.step, ChannelImpl.recvFromLoop, herror]
  | descriptorWritten d =>
      obtain ⟨herror, hlink⟩ := h d
      simp only [step] at hstep
      split at hstep
      · exact absurd hstep (by simp)
      · next call hcall =>
        obtain rfl := Option.some.inj hstep
        have hkind := List.find?_some hcall
        refine inv_sender h ?_ (linkInv_descriptorWritten hlink call)
        rw [step_sendReport herror]
        cases call with
        | writeDescriptor n descriptor => rfl
        | readCompletion n => cases hkind
  | descriptorRead d =>
      have herror := (h !d).1
      simp only [step] at hstep
      split at hstep
      · next n m descriptor hread hframe =>
        obtain rfl := Option.some.inj hstep
        refine inv_receiver h ?_ (linkInv_descriptorRead (h d).2 hread hframe)
        rw [step_recvReport herror]
        simp only [ChannelImpl.onRecvReport, herror, if_neg Bool.false_ne_true]
      · exact absurd hstep (by simp)
  | copied d =>
      simp only [step] at hstep
      split at hstep
      · exact absurd hstep (by simp)
      · next copy hcopy =>
        obtain rfl := Option.some.inj hstep
        intro e
        obtain ⟨herror, hlink⟩ := h e
        refine ⟨herror, ?_⟩
        by_cases he : e = d
        · subst he
          simp only [if_true]
          exact linkInv_copied hlink hcopy
        · simp only [if_neg he]
          exact hlink
  | copyReported d =>
      have herror := (h !d).1
      simp only [step] at hstep
      split at hstep
      · exact absurd hstep (by simp)
      · next n remote ptr length hcopy =>
        by_cases hlt : (p.link d).copiesReported < (p.link d).copied.length
        · rw [if_pos hlt] at hstep
          obtain rfl := Option.some.inj hstep
          refine inv_receiver h ?_ (linkInv_copyReported (h d).2 hcopy hlt)
          rw [step_recvReport herror]
          simp only [ChannelImpl.onRecvReport, herror]
        · rw [if_neg hlt] at hstep
          exact absurd hstep (by simp)
  | completionWritten d =>
      have herror := (h !d).1
      simp only [step] at hstep
      split at hstep
      · exact absurd hstep (by simp)
      · next call hcall =>
        obtain rfl := Option.some.inj hstep
        have hkind := List.find?_some hcall
        refine inv_receiver h ?_ (linkInv_completionWritten (h d).2 call)
        rw [step_recvReport herror]
        cases call with
        | readDescriptor n => cases hkind
        | requestCopy n remote ptr length => cases hkind
        | writeCompletion n => rfl
  | completionRead d =>
      obtain ⟨herror, hlink⟩ := h d
      simp only [step] at hstep
      split at hstep
      · next n m hread hframe =>
        obtain rfl := Option.some.inj hstep
        refine inv_sender h ?_ (linkInv_completionRead hlink hread hframe)
        rw [step_sendReport herror]
        simp only [ChannelImpl.onSendReport, herror]
      · exact absurd hstep (by simp)

/-- Every pair that can be reached satisfies the invariant. -/
theorem inv_reachable (h : Reachable describe lengths p) : Inv describe lengths p := by
  induction h with
  | init => exact inv_empty
  | step _ event hstep ih => exact inv_step ih event hstep

-- ── What the frames are for ──────────────────────────────────────────────────

/-- What each operation read is what its own number wrote, and the memory of a tensor is the
    sender's again only after the copy.  An empty tensor has no copy to wait for. -/
structure Agree (lengths : Bool → Nat → Nat) (p : Pair D) : Prop where
  descriptors : ∀ d, ∀ nm ∈ (p.link d).descriptorsRead, nm.1 = nm.2
  completions : ∀ d, ∀ nm ∈ (p.link d).completionsRead, nm.1 = nm.2
  copied : ∀ d n, (n, false) ∈ (p.channel d).send.io.callbacks → lengths d n ≠ 0 →
    n ∈ (p.link d).copied
  copies : ∀ d, ∀ copy ∈ (p.channel !d).recv.io.issued.filterMap RecvCall.copy?,
    lengths d copy.1 ≠ 0

omit [DecidableEq D] in
/-- A receive that was called back has been copied to. -/
theorem copied_of_callback {describe : Nat → D} {lengths : Nat → Nat} {l : Link}
    {send : Side SendOperation (SendCall D)} {recv : Side (RecvOperation D) (RecvCall D)}
    (h : LinkInv describe lengths send recv l) {n : Nat}
    (hcall : (n, false) ∈ send.io.callbacks) (hn : lengths n ≠ 0) : n ∈ l.copied := by
  obtain ⟨ptrs, hsend⟩ := h.sender
  obtain ⟨ptrs', remotes, hrecv⟩ := h.receiver
  have htravels : travels lengths n = true := by simp [travels, hn]
  have hindex := hsend.callbacks n false hcall htravels
  have hreported := h.reported
  have hcompleted := h.completed
  have hstarted := h.started
  have hbound := hrecv.bound
  -- The n-th tensor comes before the last one copied, so the receiver has submitted it too.
  have hlt : n < recv.next := by
    refine Nat.lt_of_not_le (fun hle => ?_)
    have := indexOf_mono (p := travels lengths) hle
    omega
  rw [h.copied]
  refine List.mem_of_getElem? (i := indexOf (travels lengths) n) ?_
  rw [List.getElem?_take_of_lt (by omega)]
  exact numbersBelow_getElem?.mpr ⟨hlt, htravels, rfl⟩

/-- In every pair that can be reached the two ends agree. -/
theorem agree_of_reachable (h : Reachable describe lengths p) : p.Agree lengths := by
  have hinv := inv_reachable h
  constructor
  · exact fun d => (hinv d).2.descriptors
  · exact fun d => (hinv d).2.completions
  · exact fun d n hcall hn => copied_of_callback (hinv d).2 hcall hn
  · intro d copy hmem
    obtain ⟨ptrs, remotes, hrecv⟩ := (hinv d).2.receiver
    have htake : copy.1 ∈ (numbersBelow (travels (lengths d)) (p.channel !d).recv.next).take
        (p.link d).descriptorsRead.length := by
      rw [← hrecv.copies]
      exact List.mem_map_of_mem hmem
    have htravels := (List.mem_filter.mp (List.mem_of_mem_take htake)).2
    simpa [travels] using htravels

end Pair

-- ── Both channels ────────────────────────────────────────────────────────────

/-- Whatever order the events of two connected channels come in, frames and operations agree
    on their numbers and callbacks come after copies: with the descriptors of cma, whatever
    the two processes, and with those of xth. -/
theorem completion_agreement (lengths : Bool → Nat → Nat) :
    (∀ (pid : Bool → UInt32) (p : Pair Cma.Descriptor),
      Pair.Reachable (fun d => Cma.describe (pid d)) lengths p → p.Agree lengths) ∧
    (∀ p : Pair Xth.Descriptor,
      Pair.Reachable (fun _ => Xth.describe) lengths p → p.Agree lengths) :=
  ⟨fun _ _ h => Pair.agree_of_reachable h, fun _ h => Pair.agree_of_reachable h⟩

/-- An empty tensor and one of four bytes: the callback of the second one waits for the
    completion. -/
theorem completion_agreement_two :
    ∃ p : Pair Xth.Descriptor, p.Agree (fun _ n => 4 * n) ∧
      (p.channel true).send.io.callbacks = [(0, false), (1, false)] ∧
      (p.link true).completionsRead = [(1, 1)] := by
  have hrun : Pair.run (fun _ => Xth.describe) (fun _ n => 4 * n)
      [.send true 16, .recv true 32, .recv true 48, .send true 64, .descriptorRead true,
        .copied true, .copyReported true, .completionRead true] {} ≠ none := nofun
  obtain ⟨p, hp⟩ := Option.ne_none_iff_exists'.mp hrun
  refine ⟨p, (completion_agreement (fun _ n => 4 * n)).2 p (Pair.reachable_run .init _ hp), ?_⟩
  obtain rfl := Option.some.inj hp
  exact ⟨rfl, rfl⟩

end TpCopy
