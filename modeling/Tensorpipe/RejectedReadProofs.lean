import Tensorpipe.DeferredExecutorProofs
import Tensorpipe.PipeRunProofs

/-! # A read call that is rejected

    The check of a read call throws from inside a task of the on-demand loop.  Nothing in the
    loop catches the exception: it leaves `deferToLoop` before the critical section that gives
    up the role.  From then on the executor is ABANDONED: it says that a thread has the role,
    no thread has it, and every later call to `deferToLoop` only appends to the queue.

    One half of the pipe restores itself, the other does not: with no allocation expected the
    call fails before it has done anything, but an allocation that does not fit is compared
    with the descriptor only after the pipe has stopped expecting one. -/

namespace TpExecutor

namespace OnDemandDeferredExecutor

-- ── A task that throws ───────────────────────────────────────────────────────

/-- The exception of the task that a thread runs leaves its loop. -/
def unwind (t : Nat) (x : OnDemandDeferredExecutor) : OnDemandDeferredExecutor :=
  match x.stack t with
  | .running _ :: rest => { x with stack := setStack x.stack t rest }
  | _ => x

/-- A thread is said to have the role, and none is in a loop. -/
structure Abandoned (x : OnDemandDeferredExecutor) (t : Nat) : Prop where
  role : x.currentLoop = some t
  stack : ∀ t', x.stack t' = []

section Abandoned

variable {x : OnDemandDeferredExecutor} {t : Nat}

/-- The thread that runs a task has the role, in the only loop there is. -/
theorem running_alone (h : LoopInv x) {n : Nat} {rest : List Frame}
    (hself : x.stack t = .running n :: rest) :
    x.currentLoop = some t ∧ rest = [] ∧ ∀ t', t' ≠ t → x.stack t' = [] := by
  have hmine : ∀ {t'}, (∀ t'', t'' ≠ t' → x.stack t'' = []) → t = t' := by
    intro t' hstack
    by_contra hne
    rw [hstack t hne] at hself
    exact nomatch hself
  cases h.role with
  | free _ hstack _ _ =>
      rw [hstack t] at hself
      exact nomatch hself
  | between t' _ hself' hstack _ =>
      obtain rfl := hmine hstack
      rw [hself'] at hself
      exact nomatch (List.cons.inj hself).1
  | busy t' m hloop hself' hstack _ =>
      obtain rfl := hmine hstack
      rw [hself'] at hself
      exact ⟨hloop, (List.cons.inj hself).2.symm, hstack⟩

/-- The role stays with a thread that has left. -/
theorem unwind_abandoned (h : LoopInv x) {n : Nat} {rest : List Frame}
    (hself : x.stack t = .running n :: rest) : Abandoned (x.unwind t) t := by
  obtain ⟨hloop, rfl, hstack⟩ := running_alone h hself
  rw [unwind, hself]
  constructor
  · exact hloop
  · intro t'
    show setStack x.stack t [] t' = []
    by_cases hne : t' = t
    · rw [hne, setStack_self]
    · rw [setStack_of_ne _ _ hne]
      exact hstack t' hne

theorem unwind_log (x : OnDemandDeferredExecutor) (t : Nat) : (x.unwind t).log = x.log := by
  rw [unwind]
  split <;> rfl

/-- Whoever defers a task to an abandoned executor is told that it is taken care of. -/
theorem abandoned_deferToLoop (h : Abandoned x t) (t' : Nat) :
    Abandoned (x.deferToLoop t') t ∧ starts (x.deferToLoop t').log = starts x.log := by
  rw [deferToLoop, h.role]
  exact ⟨⟨rfl, h.stack⟩, starts_other rfl⟩

end Abandoned

end OnDemandDeferredExecutor

end TpExecutor

namespace TpPipe

open TpStateMachine TpMessage TpExecutor

namespace PipeImpl

-- ── The check ────────────────────────────────────────────────────────────────

/-- The pipe expects no allocation any more. -/
def stopExpecting (p : PipeImpl) : PipeImpl :=
  { p with reads := ({ p.reads.1 with nextMessageGettingAllocation := none }, p.reads.2) }

theorem stopExpecting_of_none {p : PipeImpl}
    (h : p.reads.1.nextMessageGettingAllocation = none) : p.stopExpecting = p := by
  rw [stopExpecting, ← h]

theorem stopExpecting_iff {p : PipeImpl} :
    p.stopExpecting = p ↔ p.reads.1.nextMessageGettingAllocation = none := by
  constructor
  · intro h
    rw [← h]
    rfl
  · exact stopExpecting_of_none

/-- With no allocation expected the call fails at once. -/
theorem read_unexpected {p : PipeImpl} (h : p.reads.1.nextMessageGettingAllocation = none)
    (allocation : Allocation) : p.run (.read allocation) = .throws p := by
  show (readFromLoop p.gate allocation p.reads).map _ = _
  rw [readFromLoop, h]
  rfl

/-- **How a read call is rejected.**  In either case nothing is expected afterwards. -/
theorem read_rejected {p : PipeImpl} (h : PipeInv p) {allocation : Allocation}
    (hrejected : ¬ Legal (.read allocation) p) :
    p.run (.read allocation) = .throws p.stopExpecting := by
  cases hnext : p.reads.1.nextMessageGettingAllocation with
  | none =>
      rw [stopExpecting_of_none hnext]
      exact read_unexpected hnext allocation
  | some n =>
      have hinv : ReadInv p.gate p.reads.1 p.reads.2 := h.reads.inv
      obtain ⟨op, hop, -, rfl⟩ := (hinv.cursors.expected n).mp hnext
      have hfind : p.reads.2.find? (fun o => o.sequenceNumber == op.sequenceNumber) = some op :=
        numbered_find hinv.queue.numbered hop
      have hcompat : checkAllocationCompatibility op.descriptor allocation = false := by
        by_contra hfits
        exact hrejected ⟨op, hop, hnext, eq_true_of_ne_false hfits⟩
      show (readFromLoop p.gate allocation p.reads).map _ = _
      rw [readFromLoop, hnext]
      dsimp only
      rw [hfind]
      dsimp only
      rw [if_pos hcompat]
      rfl

end PipeImpl

-- ── The pipe on the loop of its context ──────────────────────────────────────

open OnDemandDeferredExecutor

/-- A pipe and the loop that it shares with the other objects of its context.  A task of this
    pipe is in `tasks` under its number, a task of another object is `none` there. -/
structure PipeContext where
  loop : OnDemandDeferredExecutor := {}
  tasks : List (Option PipeImpl.Task) := []
  pipe : PipeImpl

namespace PipeContext

/-- A thread defers a task, or goes on with what it runs. -/
inductive Step where
  | deferToLoop (t : Nat) (task : Option PipeImpl.Task)
  | advance (t : Nat)

/-- The task of this pipe that a thread is running. -/
def running (s : PipeContext) (t : Nat) : Option PipeImpl.Task :=
  match s.loop.stack t with
  | .running n :: _ => (s.tasks[n]?).join
  | _ => none

/-- When a step can be taken. -/
def enabled (s : PipeContext) : Step → Prop
  | .deferToLoop t _ => s.loop.canDefer t
  | .advance t => s.loop.stack t ≠ [] ∧ ∀ task, s.running t = some task → s.pipe.Allowed task

/-- A task of this pipe has its effect when it ends. -/
def step (s : PipeContext) : Step → PipeContext
  | .deferToLoop t task =>
      { s with loop := s.loop.deferToLoop t, tasks := s.tasks ++ [task] }
  | .advance t =>
      match s.running t with
      | none => { s with loop := s.loop.advance t }
      | some task =>
          match s.pipe.run task with
          | .returns p => { s with pipe := p, loop := s.loop.advance t }
          | .throws p => { s with pipe := p, loop := s.loop.unwind t }

/-- The loop may have been in use before the pipe was there. -/
inductive Reachable : PipeContext → Prop where
  | init {loop : OnDemandDeferredExecutor} {p : PipeImpl} (hloop : loop.Reachable)
      (hp : PipeImpl.Reachable (fun _ _ => True) p) :
      Reachable { loop := loop, tasks := List.replicate loop.next none, pipe := p }
  | step {s : PipeContext} (h : Reachable s) (c : Step) (henabled : s.enabled c) :
      Reachable (s.step c)

/-- What can follow. -/
inductive Run (s : PipeContext) : PipeContext → Prop where
  | refl : Run s s
  | step {s' : PipeContext} (h : Run s s') (c : Step) (henabled : s'.enabled c) : Run s (s'.step c)

/-- Everything is as if a call had not been made. -/
structure Restored (before after : PipeContext) : Prop where
  /-- Every field of the pipe is as it was. -/
  pipe : after.pipe = before.pipe
  /-- A read call that fits is accepted. -/
  accepted : ∀ allocation, before.pipe.Legal (.read allocation) →
    ∃ p, after.pipe.run (.read allocation) = .returns p
  /-- The role of the loop is free. -/
  released : after.loop.currentLoop = none
  /-- Whatever was or will be deferred can still get its turn. -/
  executed : ∀ s, Run after s → ∀ n ∈ accepts s.loop.log,
    ∃ s', Run s s' ∧ n ∈ starts s'.loop.log

section Steps

variable {s s' : PipeContext} {t : Nat} {task : PipeImpl.Task}

theorem running_stack (h : s.running t = some task) :
    ∃ n rest, s.loop.stack t = .running n :: rest := by
  rw [running] at h
  split at h
  · exact ⟨_, _, ‹_›⟩
  · exact nomatch h

/-- A task that throws. -/
theorem advance_throws {p : PipeImpl} (h : s.running t = some task)
    (hthrows : s.pipe.run task = .throws p) :
    s.step (.advance t) = { s with pipe := p, loop := s.loop.unwind t } := by
  rw [step, h]
  dsimp only
  rw [hthrows]

/-- The loop works as the executor says, or no thread will ever run it again. -/
inductive Phase (s : PipeContext) : Prop where
  | working (hloop : s.loop.Reachable) (hp : PipeImpl.Reachable (fun _ _ => True) s.pipe)
  | abandoned (t : Nat) (h : Abandoned s.loop t)

/-- **Step lemma.** -/
theorem phase_step (h : Phase s) (c : Step) (henabled : s.enabled c) : Phase (s.step c) := by
  cases h with
  | working hloop hp =>
      cases c with
      | deferToLoop t task => exact .working (.step hloop (.deferToLoop t) henabled) hp
      | advance t =>
          have hadvance : (s.loop.advance t).Reachable := .step hloop (.advance t) henabled.1
          cases hrunning : s.running t with
          | none =>
              rw [step, hrunning]
              exact .working hadvance hp
          | some task =>
              cases hrun : s.pipe.run task with
              | returns p =>
                  rw [step, hrunning]
                  dsimp only
                  rw [hrun]
                  exact .working hadvance (.step task hp (henabled.2 task hrunning) trivial hrun)
              | throws p =>
                  obtain ⟨n, rest, hself⟩ := running_stack hrunning
                  rw [advance_throws hrunning hrun]
                  exact .abandoned t (unwind_abandoned (loopInv_reachable hloop) hself)
  | abandoned t h =>
      cases c with
      | deferToLoop t' task => exact .abandoned t (abandoned_deferToLoop h t').1
      | advance t' => exact absurd (h.stack t') henabled.1

/-- **Run lemma.** -/
theorem phase_reachable (h : Reachable s) : Phase s := by
  induction h with
  | init hloop hp => exact .working hloop hp
  | step _ c henabled ih => exact phase_step ih c henabled

/-- A thread that runs a task of the pipe finds it between two tasks. -/
theorem running_working (h : Reachable s) (hrunning : s.running t = some task) :
    LoopInv s.loop ∧ PipeImpl.PipeInv s.pipe := by
  obtain ⟨n, rest, hself⟩ := running_stack hrunning
  cases phase_reachable h with
  | working hloop hp => exact ⟨loopInv_reachable hloop, PipeImpl.reachable_inv hp⟩
  | abandoned t' habandoned =>
      rw [habandoned.stack t] at hself
      exact nomatch hself

/-- Nothing happens any more on an abandoned loop. -/
structure Frozen (s s' : PipeContext) (t : Nat) : Prop where
  abandoned : Abandoned s'.loop t
  pipe : s'.pipe = s.pipe
  starts : starts s'.loop.log = starts s.loop.log

theorem frozen_run (h : Abandoned s.loop t) (hrun : Run s s') : Frozen s s' t := by
  induction hrun with
  | refl => exact ⟨h, rfl, rfl⟩
  | step _ c henabled ih =>
      cases c with
      | advance t' => exact absurd (ih.abandoned.stack t') henabled.1
      | deferToLoop t' task =>
          obtain ⟨habandoned, hstarts⟩ := abandoned_deferToLoop ih.abandoned t'
          exact ⟨habandoned, ih.pipe, hstarts.trans ih.starts⟩

end Steps

-- ── What a rejected call leaves ──────────────────────────────────────────────

/-- **A rejected read call is never undone.**  The pipe itself is as before just if it expected
    no allocation; whatever it expected, no read call is accepted afterwards, the role of the
    loop stays with the thread that has left, and no task ever starts again. -/
theorem rejected_read_abandons {s : PipeContext} {t : Nat} {allocation : Allocation}
    (h : Reachable s) (hrunning : s.running t = some (.read allocation))
    (hrejected : ¬ s.pipe.Legal (.read allocation)) :
    ¬ Restored s (s.step (.advance t))
    ∧ ((s.step (.advance t)).pipe = s.pipe
        ↔ s.pipe.reads.1.nextMessageGettingAllocation = none)
    ∧ (∀ other, (s.step (.advance t)).pipe.run (.read other)
        = .throws (s.step (.advance t)).pipe)
    ∧ ∀ s', Run (s.step (.advance t)) s' →
        s'.loop.currentLoop = some t ∧ s'.pipe = (s.step (.advance t)).pipe
        ∧ starts s'.loop.log = starts s.loop.log := by
  obtain ⟨hloop, hinv⟩ := running_working h hrunning
  obtain ⟨n, rest, hself⟩ := running_stack hrunning
  have hthrows := PipeImpl.read_rejected hinv hrejected
  have habandoned := unwind_abandoned hloop hself
  rw [advance_throws hrunning hthrows]
  refine ⟨?_, PipeImpl.stopExpecting_iff, PipeImpl.read_unexpected rfl, ?_⟩
  · intro hrestored
    exact nomatch habandoned.role.symm.trans hrestored.released
  · intro s' hrun
    have hfrozen := frozen_run habandoned hrun
    exact ⟨hfrozen.abandoned.role, hfrozen.pipe, hfrozen.starts.trans
      (congrArg starts (unwind_log s.loop t))⟩

-- A client expects an allocation for a message without payloads, and is given one with one.

/-- Memory for one payload. -/
def sampleMisfit : Allocation where
  payloads := [⟨8192⟩]

/-- A pipe with a read that waits for its allocation. -/
def sampleExpecting : PipeContext where
  pipe := PipeImpl.sampleAsking

/-- Thread 7 has called `read` and runs its task. -/
def sampleReading : PipeContext :=
  (sampleExpecting.step (.deferToLoop 7 (some (.read sampleMisfit)))).step (.advance 7)

theorem sampleReading_reachable : Reachable sampleReading := by
  have hasking : PipeImpl.Reachable (fun _ _ => True) PipeImpl.sampleAsking :=
    .step (.readDone (.descriptor 0) none {})
      (.step .readDescriptor (PipeImpl.sampleEstablished_reachable trivial) trivial trivial rfl)
      List.mem_cons_self trivial rfl
  have hdeferred : Reachable (sampleExpecting.step (.deferToLoop 7 (some (.read sampleMisfit)))) :=
    .step (.init .init hasking) _ (Or.inl rfl)
  refine .step hdeferred (.advance 7) ⟨List.cons_ne_nil _ _, ?_⟩
  intro task hrunning
  exact nomatch hrunning

theorem sampleMisfit_rejected : ¬ sampleReading.pipe.Legal (.read sampleMisfit) := by
  rintro ⟨op, hop, -, hfits⟩
  have hmisfit : ∀ op ∈ sampleReading.pipe.reads.2,
      checkAllocationCompatibility op.descriptor sampleMisfit = false := by decide
  rw [hmisfit op hop] at hfits
  exact nomatch hfits

theorem rejected_read_abandons_misfit :
    sampleReading.running 7 = some (.read sampleMisfit)
    ∧ ¬ Restored sampleReading (sampleReading.step (.advance 7)) :=
  ⟨rfl, (rejected_read_abandons sampleReading_reachable rfl sampleMisfit_rejected).1⟩

/-- The allocation that would have fitted comes too late, and the loop is lost. -/
theorem misfit_not_undone :
    ∃ s t allocation, Reachable s ∧ s.running t = some (.read allocation)
      ∧ ¬ s.pipe.Legal (.read allocation)
      ∧ s.pipe.reads.1.nextMessageGettingAllocation = some 0
      ∧ (s.step (.advance t)).pipe.reads.1.nextMessageGettingAllocation = none
      ∧ (s.step (.advance t)).loop.currentLoop = some t
      ∧ ¬ Restored s (s.step (.advance t)) := by
  refine ⟨sampleReading, 7, sampleMisfit, sampleReading_reachable, rfl, sampleMisfit_rejected,
    rfl, rfl, rfl, ?_⟩
  intro hrestored
  exact nomatch hrestored.released

end PipeContext

end TpPipe
