import Mathlib.Data.List.Range
import Mathlib.Tactic.Common
import Tensorpipe.DeferredExecutorProofs

/-! # The event-loop executor — hand-over to the on-demand loop

    While its thread consumes the deferred functions, tasks go to `fns`, and the busy-polling
    loop swaps them out in batches when polling finds nothing to do.  Once the loop ends, the
    thread goes on until it finds `fns` empty, and clears the flag in that critical section.
    From then on tasks go to an on-demand executor.

    A thread that finds the flag cleared leaves the critical section before it enters the
    on-demand executor, and others may go first.

    The count of deferred functions is raised inside the critical section that adds a function
    and is read without the lock.  What happens in between shows to nobody: functions are taken
    under the lock. -/

namespace TpExecutor

open TpStateMachine

-- ── The executor and its thread ──────────────────────────────────────────────

/-- Where the thread is: in `eventLoop`, in the loop that winds down, or past both.  A batch is
    of one or the other; it has the functions that were not started yet and the one that is
    running. -/
inductive LoopPc where
  | top
  | polling
  | idle
  | swapping
  | batch (windingDown : Bool) (size : Nat) (rest : List Nat) (current : Option Nat)
  | winding
  | cleanUp
  | exited
deriving DecidableEq, Repr

/-- The functions of the batch that the thread has not run. -/
def LoopPc.rest : LoopPc → List Nat
  | batch _ _ rest _ => rest
  | _ => []

/-- The function that the thread runs. -/
def LoopPc.current : LoopPc → Option Nat
  | batch _ _ _ current => current
  | _ => none

/-- The functions of the batch, which are still counted. -/
def LoopPc.size : LoopPc → Nat
  | batch _ size _ _ => size
  | _ => 0

/-- The thread has no batch. -/
def LoopPc.between : LoopPc → Bool
  | batch _ _ _ _ => false
  | cleanUp => false
  | exited => false
  | _ => true

/-- Between two batches the thread runs nothing. -/
theorem LoopPc.of_between {pc : LoopPc} (h : pc.between = true) :
    pc.rest = [] ∧ pc.current = none ∧ pc.size = 0 ∧ pc ≠ .cleanUp ∧ pc ≠ .exited := by
  cases pc with
  | batch _ _ _ _ => exact nomatch h
  | cleanUp => exact nomatch h
  | exited => exact nomatch h
  | _ => exact ⟨rfl, rfl, rfl, nofun, nofun⟩

/-- The thread is in `eventLoop`. -/
def LoopPc.inEventLoop : LoopPc → Bool
  | top => true
  | polling => true
  | idle => true
  | swapping => true
  | batch windingDown _ _ _ => !windingDown
  | winding => false
  | cleanUp => false
  | exited => false

/-- The thread runs code that may defer a task: a handler, a task, or the clean-up. -/
def LoopPc.inCode : LoopPc → Bool
  | polling => true
  | batch _ _ _ (some _) => true
  | cleanUp => true
  | _ => false

/-- The thread of the event loop. -/
def loopThread : Nat := 0

/-- `entering` tells which threads found the flag cleared and are about to enter the on-demand
    executor. -/
structure EventLoopDeferredExecutor extends OnDemandDeferredExecutor where
  isThreadConsumingDeferredFunctions : Bool := false
  fns : List Nat := []
  deferredFunctionCount : Int := 0
  closed : Bool := false
  pc : LoopPc := .exited
  entering : Nat → Bool := fun _ => false

namespace EventLoopDeferredExecutor

/-- The thread of some executors is never started; the others start it before they are used. -/
def init (started : Bool) : EventLoopDeferredExecutor :=
  if started then { isThreadConsumingDeferredFunctions := true, pc := .top } else {}

/-- The critical section of `deferToLoop`. -/
def deferToLoop (t : Nat) (x : EventLoopDeferredExecutor) : EventLoopDeferredExecutor :=
  if x.isThreadConsumingDeferredFunctions then
    { x with
      next := x.next + 1
      fns := x.fns ++ [x.next]
      deferredFunctionCount := x.deferredFunctionCount + 1
      log := x.log ++ [.accepted x.next] }
  else { x with entering := fun t' => if t' = t then true else x.entering t' }

/-- A thread that was sent to the on-demand loop enters it. -/
def enterOnDemandLoop (t : Nat) (x : EventLoopDeferredExecutor) : EventLoopDeferredExecutor :=
  { x with
    toOnDemandDeferredExecutor := x.toOnDemandDeferredExecutor.deferToLoop t
    entering := fun t' => if t' = t then false else x.entering t' }

/-- A thread goes on in the on-demand loop. -/
def advance (t : Nat) (x : EventLoopDeferredExecutor) : EventLoopDeferredExecutor :=
  { x with toOnDemandDeferredExecutor := x.toOnDemandDeferredExecutor.advance t }

/-- A step of the thread.  `answer` is what `readyToClose` or `pollOnce` returns. -/
def loop (answer : Bool) (x : EventLoopDeferredExecutor) : EventLoopDeferredExecutor :=
  match x.pc with
  | .top => { x with pc := if x.closed && answer then .winding else .polling }
  | .polling => { x with pc := if answer then .top else .idle }
  | .idle => { x with pc := if 0 < x.deferredFunctionCount then .swapping else .top }
  | .swapping => { x with fns := [], pc := .batch false x.fns.length x.fns none }
  | .batch windingDown size rest (some n) =>
      { x with
        pc := .batch windingDown size rest none
        log := x.log ++ [.finished n loopThread] }
  | .batch windingDown size (n :: rest) none =>
      { x with
        pc := .batch windingDown size rest (some n)
        log := x.log ++ [.started n loopThread] }
  | .batch false size [] none =>
      { x with deferredFunctionCount := x.deferredFunctionCount - size, pc := .top }
  | .batch true _ [] none => { x with pc := .winding }
  | .winding =>
      if x.fns = [] then { x with isThreadConsumingDeferredFunctions := false, pc := .cleanUp }
      else { x with fns := [], pc := .batch true x.fns.length x.fns none }
  | .cleanUp => { x with pc := .exited }
  | .exited => x

/-- What a thread of the program or that of the loop does. -/
inductive Step where
  | deferToLoop (t : Nat)
  | enterOnDemandLoop (t : Nat)
  | advance (t : Nat)
  | loop (answer : Bool)
  | stopBusyPolling
deriving DecidableEq, Repr

/-- The thread of the loop defers from the code that it runs, and goes on when the calls it
    made have returned. -/
def enabled (x : EventLoopDeferredExecutor) : Step → Prop
  | .deferToLoop t => x.entering t = false ∧ x.canDefer t ∧ (t = loopThread → x.pc.inCode = true)
  | .enterOnDemandLoop t => x.entering t = true
  | .advance t => x.entering t = false ∧ x.stack t ≠ []
  | .loop _ => x.entering loopThread = false ∧ x.stack loopThread = []
  | .stopBusyPolling => True

/-- One step of the executor. -/
def step (x : EventLoopDeferredExecutor) : Step → EventLoopDeferredExecutor
  | .deferToLoop t => x.deferToLoop t
  | .enterOnDemandLoop t => x.enterOnDemandLoop t
  | .advance t => x.advance t
  | .loop answer => x.loop answer
  | .stopBusyPolling => { x with closed := true }

/-- The executors that can be reached, the loop started or not. -/
inductive Reachable : EventLoopDeferredExecutor → Prop where
  | init (started : Bool) : Reachable (init started)
  | step {x : EventLoopDeferredExecutor} (h : Reachable x) (s : Step) (henabled : x.enabled s) :
      Reachable (x.step s)

-- ── The two phases ───────────────────────────────────────────────────────────

/-- While the thread consumes the functions, nobody else does. -/
structure Threaded (x : EventLoopDeferredExecutor) : Prop where
  consuming : x.isThreadConsumingDeferredFunctions = true
  accepted : accepts x.log = List.range x.next
  order : starts x.log ++ (x.pc.rest ++ x.fns) = List.range x.next
  exclusive : Exclusive x.log
  free : x.currentLoop = none
  pending : x.pendingTasks = []
  returned : ∀ t, x.stack t = []
  outside : ∀ t, x.entering t = false
  running : x.pc ≠ .cleanUp ∧ x.pc ≠ .exited
  current : starts x.log = finishes x.log ++ x.pc.current.toList
  counted : x.pc.inEventLoop = true →
    x.deferredFunctionCount = x.fns.length + x.pc.size

/-- Once the flag is cleared, the on-demand executor has everything. -/
structure HandedOver (x : EventLoopDeferredExecutor) : Prop where
  consuming : x.isThreadConsumingDeferredFunctions = false
  fns : x.fns = []
  pc : x.pc = .cleanUp ∨ x.pc = .exited
  loopInv : x.toOnDemandDeferredExecutor.LoopInv

section Phases

variable {x : EventLoopDeferredExecutor}

/-- Deferring a function keeps the threaded phase. -/
theorem threaded_deferToLoop (h : Threaded x) (t : Nat) : Threaded (x.deferToLoop t) := by
  rw [deferToLoop, if_pos h.consuming]
  refine ⟨h.consuming, ?_, ?_, exclusive_other h.exclusive rfl, h.free, h.pending, h.returned,
    h.outside, h.running, ?_, fun hin => ?_⟩
  · rw [accepts_accepted, h.accepted, List.range_succ]
  · rw [starts_other rfl, List.range_succ, ← h.order, List.append_assoc, List.append_assoc]
  · rw [starts_other rfl, finishes_other rfl]
    exact h.current
  · have hcount := h.counted hin
    show x.deferredFunctionCount + 1 = (x.fns ++ [x.next]).length + _
    rw [hcount, List.length_append]
    push_cast
    show _ = _ + 1 + _
    omega

/-- A step of the thread that changes its place only. -/
theorem threaded_move (h : Threaded x) {pc : LoopPc} (hold : x.pc.between = true)
    (hnew : pc.between = true) (hin : pc.inEventLoop = true → x.pc.inEventLoop = true) :
    Threaded { x with pc := pc } := by
  obtain ⟨hrest, hcurrent, hsize, -⟩ := LoopPc.of_between hold
  obtain ⟨hrest', hcurrent', hsize', hrunning⟩ := LoopPc.of_between hnew
  refine ⟨h.consuming, h.accepted, ?_, h.exclusive, h.free, h.pending, h.returned, h.outside,
    hrunning, ?_, fun hin' => ?_⟩
  · rw [hrest', ← hrest]
    exact h.order
  · rw [hcurrent', ← hcurrent]
    exact h.current
  · rw [hsize', ← hsize]
    exact h.counted (hin hin')

/-- The functions become a batch. -/
theorem threaded_swap (h : Threaded x) (windingDown : Bool) (hold : x.pc.between = true)
    (hin : windingDown = false → x.pc.inEventLoop = true) :
    Threaded { x with fns := [], pc := .batch windingDown x.fns.length x.fns none } := by
  obtain ⟨hrest, hcurrent, hsize, -⟩ := LoopPc.of_between hold
  refine ⟨h.consuming, h.accepted, ?_, h.exclusive, h.free, h.pending, h.returned, h.outside,
    ⟨nofun, nofun⟩, ?_, fun hin' => ?_⟩
  · have horder := h.order
    rw [hrest] at horder
    rw [← horder, List.append_nil]
    rfl
  · have hc := h.current
    rw [hcurrent] at hc
    exact hc
  · have hcount := h.counted (hin (by simpa [LoopPc.inEventLoop] using hin'))
    rw [hsize] at hcount
    show x.deferredFunctionCount = (0 : Nat) + (x.fns.length : Int)
    omega

/-- Starting a function of the batch keeps the threaded phase. -/
theorem threaded_start {windingDown : Bool} {size n : Nat} {rest : List Nat} (h : Threaded x)
    (hpc : x.pc = .batch windingDown size (n :: rest) none) :
    Threaded { x with
      pc := .batch windingDown size rest (some n)
      log := x.log ++ [.started n loopThread] } := by
  have hcurrent := h.current
  have horder := h.order
  have hcounted := h.counted
  rw [hpc] at hcurrent horder hcounted
  have hidle : finishes x.log = starts x.log := (hcurrent.trans (List.append_nil _)).symm
  refine ⟨h.consuming, ?_, ?_, exclusive_started h.exclusive hidle, h.free, h.pending, h.returned,
    h.outside, ⟨nofun, nofun⟩, ?_, hcounted⟩
  · rw [accepts_other rfl]
    exact h.accepted
  · rw [starts_started, List.append_assoc]
    exact horder
  · rw [starts_started, finishes_other rfl, hidle]
    rfl

/-- Finishing a function of the batch keeps the threaded phase. -/
theorem threaded_finish {windingDown : Bool} {size n : Nat} {rest : List Nat} (h : Threaded x)
    (hpc : x.pc = .batch windingDown size rest (some n)) :
    Threaded { x with
      pc := .batch windingDown size rest none
      log := x.log ++ [.finished n loopThread] } := by
  have hcurrent := h.current
  have horder := h.order
  have hcounted := h.counted
  rw [hpc] at hcurrent horder hcounted
  refine ⟨h.consuming, ?_, ?_, exclusive_other h.exclusive rfl, h.free, h.pending, h.returned,
    h.outside, ⟨nofun, nofun⟩, ?_, hcounted⟩
  · rw [accepts_other rfl]
    exact h.accepted
  · rw [starts_other rfl]
    exact horder
  · rw [starts_other rfl, finishes_finished, hcurrent]
    exact (List.append_nil _).symm

/-- The batch is subtracted from the count. -/
theorem threaded_subtract {size : Nat} (h : Threaded x) (hpc : x.pc = .batch false size [] none) :
    Threaded { x with deferredFunctionCount := x.deferredFunctionCount - size, pc := .top } := by
  have hcurrent := h.current
  have horder := h.order
  have hcounted := h.counted
  rw [hpc] at hcurrent horder hcounted
  refine ⟨h.consuming, h.accepted, horder, h.exclusive, h.free, h.pending, h.returned, h.outside,
    ⟨nofun, nofun⟩, hcurrent, fun _ => ?_⟩
  have hcount : x.deferredFunctionCount = x.fns.length + (size : Int) := hcounted rfl
  show x.deferredFunctionCount - size = x.fns.length + ((0 : Nat) : Int)
  omega

/-- The thread hands over in the critical section that finds nothing to run. -/
theorem handedOver_winding (h : Threaded x) (hpc : x.pc = .winding) (hfns : x.fns = []) :
    HandedOver { x with isThreadConsumingDeferredFunctions := false, pc := .cleanUp } := by
  have hcurrent := h.current
  have horder := h.order
  rw [hpc] at hcurrent
  rw [hpc, hfns] at horder
  refine ⟨rfl, hfns, Or.inl rfl, h.accepted, ?_, h.exclusive, ?_⟩
  · show starts x.log ++ x.pendingTasks = _
    rw [h.pending]
    exact horder
  · exact .free h.free h.returned h.pending (hcurrent.trans (List.append_nil _)).symm

/-- A step of the loop's thread keeps the phase or hands over. -/
theorem phase_loop (h : Threaded x) (answer : Bool) :
    Threaded (x.loop answer) ∨ HandedOver (x.loop answer) := by
  rw [loop]
  cases hpc : x.pc with
  | top =>
      refine Or.inl (threaded_move h (by rw [hpc]; rfl) ?_ (fun _ => by rw [hpc]; rfl))
      split <;> rfl
  | polling =>
      refine Or.inl (threaded_move h (by rw [hpc]; rfl) ?_ (fun _ => by rw [hpc]; rfl))
      split <;> rfl
  | idle =>
      refine Or.inl (threaded_move h (by rw [hpc]; rfl) ?_ (fun _ => by rw [hpc]; rfl))
      split <;> rfl
  | swapping =>
      exact Or.inl (threaded_swap h false (by rw [hpc]; rfl) (fun _ => by rw [hpc]; rfl))
  | batch windingDown size rest current =>
      refine Or.inl ?_
      cases current with
      | some n => exact threaded_finish h hpc
      | none =>
          cases rest with
          | cons n rest => exact threaded_start h hpc
          | nil =>
              cases windingDown with
              | false => exact threaded_subtract h hpc
              | true =>
                  have hcurrent := h.current
                  have horder := h.order
                  rw [hpc] at hcurrent horder
                  exact ⟨h.consuming, h.accepted, horder, h.exclusive, h.free, h.pending,
                    h.returned, h.outside, ⟨nofun, nofun⟩, hcurrent, nofun⟩
  | winding =>
      by_cases hfns : x.fns = []
      · simp only [if_pos hfns]
        exact Or.inr (handedOver_winding h hpc hfns)
      · simp only [if_neg hfns]
        exact Or.inl (threaded_swap h true (by rw [hpc]; rfl) nofun)
  | cleanUp => exact absurd hpc h.running.1
  | exited => exact absurd hpc h.running.2

/-- After the hand-over the loop's thread does nothing any more. -/
theorem handedOver_loop (h : HandedOver x) (answer : Bool) : HandedOver (x.loop answer) := by
  rw [loop]
  rcases h.pc with hpc | hpc
  · rw [hpc]
    exact ⟨h.consuming, h.fns, Or.inr rfl, h.loopInv⟩
  · rw [hpc]
    exact h

/-- **Step lemma.** -/
theorem phase_step (h : Threaded x ∨ HandedOver x) (s : Step) (henabled : x.enabled s) :
    Threaded (x.step s) ∨ HandedOver (x.step s) := by
  rcases h with h | h
  · cases s with
    | deferToLoop t => exact Or.inl (threaded_deferToLoop h t)
    | enterOnDemandLoop t => exact nomatch (h.outside t).symm.trans henabled
    | advance t => exact absurd (h.returned t) henabled.2
    | loop answer => exact phase_loop h answer
    | stopBusyPolling =>
        exact Or.inl ⟨h.consuming, h.accepted, h.order, h.exclusive, h.free, h.pending, h.returned,
          h.outside, h.running, h.current, h.counted⟩
  · refine Or.inr ?_
    cases s with
    | deferToLoop t =>
        show HandedOver (x.deferToLoop t)
        rw [deferToLoop, if_neg (by rw [h.consuming]; exact Bool.false_ne_true)]
        exact ⟨h.consuming, h.fns, h.pc, h.loopInv⟩
    | enterOnDemandLoop t =>
        exact ⟨h.consuming, h.fns, h.pc, OnDemandDeferredExecutor.loopInv_deferToLoop h.loopInv t⟩
    | advance t =>
        exact ⟨h.consuming, h.fns, h.pc, OnDemandDeferredExecutor.loopInv_advance h.loopInv t⟩
    | loop answer => exact handedOver_loop h answer
    | stopBusyPolling => exact ⟨h.consuming, h.fns, h.pc, h.loopInv⟩

/-- **Run lemma.** -/
theorem phase_reachable (h : Reachable x) : Threaded x ∨ HandedOver x := by
  induction h with
  | init started =>
      cases started with
      | true =>
          exact Or.inl ⟨rfl, rfl, rfl, always_nil, rfl, rfl, fun _ => rfl, fun _ => rfl,
            ⟨nofun, nofun⟩, rfl, fun _ => rfl⟩
      | false =>
          exact Or.inr ⟨rfl, rfl, Or.inr rfl,
            ⟨rfl, rfl, always_nil, .free rfl (fun _ => rfl) rfl rfl⟩⟩
  | step _ s henabled ih => exact phase_step ih s henabled

end Phases

-- ── Nothing gets stuck ───────────────────────────────────────────────────────

/-- The steps that finish what was begun: nobody defers another task. -/
def Step.internal : Step → Bool
  | .enterOnDemandLoop _ => true
  | .advance _ => true
  | .loop _ => true
  | _ => false

/-- What the executor comes to when only the threads of the loops run. -/
inductive Settles (x : EventLoopDeferredExecutor) : EventLoopDeferredExecutor → Prop where
  | refl : Settles x x
  | step {y : EventLoopDeferredExecutor} (h : Settles x y) (s : Step)
      (hinternal : s.internal = true) (henabled : y.enabled s) : Settles x (y.step s)

section Settling

variable {x y z : EventLoopDeferredExecutor}

/-- What settles may settle further. -/
theorem Settles.trans (hxy : Settles x y) (hyz : Settles y z) : Settles x z := by
  induction hyz with
  | refl => exact hxy
  | step _ s hinternal henabled ih => exact .step ih s hinternal henabled

/-- A step of the loop's thread. -/
theorem settles_loop (h : Threaded x) (answer : Bool) : Settles x (x.loop answer) :=
  .step .refl (.loop answer) rfl ⟨h.outside loopThread, h.returned loopThread⟩

/-- The thread runs its batch to the end. -/
theorem settles_batch {windingDown : Bool} {size : Nat} :
    ∀ (rest : List Nat) (current : Option Nat) (x : EventLoopDeferredExecutor), Threaded x →
      x.pc = .batch windingDown size rest current →
      ∃ y, Settles x y ∧ Threaded y ∧ y.pc.between = true ∧ y.fns = x.fns := by
  intro rest
  induction rest with
  | nil =>
      intro current x h hpc
      have hlast : ∀ {y : EventLoopDeferredExecutor}, Threaded y →
          y.pc = .batch windingDown size [] none →
          ∃ z, Settles y z ∧ Threaded z ∧ z.pc.between = true ∧ z.fns = y.fns := by
        intro y hy hpc'
        have hstep := settles_loop hy false
        have hphase := phase_loop hy false
        rw [loop, hpc'] at hstep hphase
        cases windingDown with
        | false => exact ⟨_, hstep, threaded_subtract hy hpc', rfl, rfl⟩
        | true =>
            rcases hphase with hnext | hover
            · exact ⟨_, hstep, hnext, rfl, rfl⟩
            · exact nomatch hover.consuming.symm.trans hy.consuming
      cases current with
      | none => exact hlast h hpc
      | some n =>
          have hstep := settles_loop h false
          rw [loop, hpc] at hstep
          obtain ⟨z, hz, hrest⟩ := hlast (threaded_finish h hpc) rfl
          exact ⟨z, hstep.trans hz, hrest⟩
  | cons n rest ih =>
      intro current x h hpc
      have hfirst : ∀ {y : EventLoopDeferredExecutor}, Threaded y →
          y.pc = .batch windingDown size (n :: rest) none →
          ∃ z, Settles y z ∧ Threaded z ∧ z.pc.between = true ∧ z.fns = y.fns := by
        intro y hy hpc'
        have hstep := settles_loop hy false
        rw [loop, hpc'] at hstep
        obtain ⟨z, hz, hrest⟩ := ih (some n) _ (threaded_start hy hpc') rfl
        exact ⟨z, hstep.trans hz, hrest⟩
      cases current with
      | none => exact hfirst h hpc
      | some m =>
          have hstep := settles_loop h false
          rw [loop, hpc] at hstep
          obtain ⟨z, hz, hrest⟩ := hfirst (threaded_finish h hpc) rfl
          exact ⟨z, hstep.trans hz, hrest⟩

/-- The functions that a swap takes are run. -/
theorem settles_swap (h : Threaded x) (windingDown : Bool) (hold : x.pc.between = true)
    (hin : windingDown = false → x.pc.inEventLoop = true)
    (hstep : Settles x { x with fns := [], pc := .batch windingDown x.fns.length x.fns none }) :
    ∃ y, Settles x y ∧ Threaded y ∧ y.pc.between = true ∧ y.fns = [] := by
  obtain ⟨y, hy, hrest⟩ := settles_batch x.fns none _ (threaded_swap h windingDown hold hin) rfl
  exact ⟨y, hstep.trans hy, hrest⟩

/-- An idle loop comes to the end of what waits. -/
theorem settles_idle (h : Threaded x) (hpc : x.pc = .idle) :
    ∃ y, Settles x y ∧ Threaded y ∧ y.pc.between = true ∧ y.fns = [] := by
  by_cases hfns : x.fns = []
  · exact ⟨x, .refl, h, by rw [hpc]; rfl, hfns⟩
  · have hcount := h.counted (by rw [hpc]; rfl)
    have hpos : 0 < x.deferredFunctionCount := by
      rw [hcount, hpc]
      have := List.length_pos_iff.mpr hfns
      show 0 < (x.fns.length : Int) + ((0 : Nat) : Int)
      omega
    have hstep := settles_loop h false
    rw [loop, hpc] at hstep
    simp only [if_pos hpos] at hstep
    have hnext : Threaded { x with pc := .swapping } :=
      threaded_move h (by rw [hpc]; rfl) rfl (fun _ => by rw [hpc]; rfl)
    obtain ⟨y, hy, hrest⟩ := settles_swap hnext false rfl (fun _ => rfl) (settles_loop hnext false)
    exact ⟨y, hstep.trans hy, hrest⟩

/-- A polling loop comes to the end of what waits. -/
theorem settles_polling (h : Threaded x) (hpc : x.pc = .polling) :
    ∃ y, Settles x y ∧ Threaded y ∧ y.pc.between = true ∧ y.fns = [] := by
  have hstep := settles_loop h false
  rw [loop, hpc] at hstep
  have hnext : Threaded { x with pc := .idle } :=
    threaded_move h (by rw [hpc]; rfl) rfl (fun _ => by rw [hpc]; rfl)
  obtain ⟨y, hy, hrest⟩ := settles_idle hnext rfl
  exact ⟨y, hstep.trans hy, hrest⟩

/-- Wherever the thread is, it gets to run what was deferred once polling is idle. -/
theorem settles_between (h : Threaded x) (hold : x.pc.between = true) :
    ∃ y, Settles x y ∧ Threaded y ∧ y.pc.between = true ∧ y.fns = [] := by
  cases hpc : x.pc with
  | top =>
      have hstep := settles_loop h false
      rw [loop, hpc, Bool.and_false] at hstep
      have hnext : Threaded { x with pc := .polling } :=
        threaded_move h hold rfl (fun _ => by rw [hpc]; rfl)
      obtain ⟨y, hy, hrest⟩ := settles_polling hnext rfl
      exact ⟨y, hstep.trans hy, hrest⟩
  | polling => exact settles_polling h hpc
  | idle => exact settles_idle h hpc
  | swapping =>
      have hstep := settles_loop h false
      rw [loop, hpc] at hstep
      exact settles_swap h false hold (fun _ => by rw [hpc]; rfl) hstep
  | winding =>
      by_cases hfns : x.fns = []
      · exact ⟨x, .refl, h, hold, hfns⟩
      · have hstep := settles_loop h false
        rw [loop, hpc] at hstep
        simp only [if_neg hfns] at hstep
        exact settles_swap h true hold nofun hstep
  | batch _ _ _ _ =>
      rw [hpc] at hold
      exact nomatch hold
  | cleanUp => exact absurd hpc h.running.1
  | exited => exact absurd hpc h.running.2

/-- Between two batches, with nothing waiting, all has finished. -/
theorem threaded_done (h : Threaded x) (hold : x.pc.between = true) (hfns : x.fns = []) :
    finishes x.log = accepts x.log := by
  obtain ⟨hrest, hcurrent, -⟩ := LoopPc.of_between hold
  have horder := h.order
  have hlast := h.current
  rw [hrest, hfns, List.append_nil, List.append_nil] at horder
  rw [hcurrent] at hlast
  rw [h.accepted, ← horder, hlast]
  exact (List.append_nil _).symm

/-- The thread that runs the on-demand loop goes on. -/
theorem settles_advance {t : Nat} (hout : x.entering t = false) (k : Nat) :
    Settles x { x with
      toOnDemandDeferredExecutor :=
        (OnDemandDeferredExecutor.advance t)^[k] x.toOnDemandDeferredExecutor } := by
  induction k with
  | zero => exact .refl
  | succ k ih =>
      rw [Function.iterate_succ_apply']
      generalize (OnDemandDeferredExecutor.advance t)^[k] x.toOnDemandDeferredExecutor = y at ih
      by_cases hstay : y.stack t = []
      · have hsame : y.advance t = y := by rw [OnDemandDeferredExecutor.advance, hstay]
        rw [hsame]
        exact ih
      · exact .step ih (.advance t) rfl ⟨hout, hstay⟩

/-- After the hand-over all that waits is finished, too. -/
theorem settles_handedOver (h : HandedOver x) :
    ∃ y, Settles x y ∧ finishes y.log = accepts y.log := by
  have hdone : ∀ {y : EventLoopDeferredExecutor}, y.toOnDemandDeferredExecutor.LoopInv →
      y.currentLoop = none → finishes y.log = accepts y.log := by
    intro y hy hnone
    cases hy.role with
    | free _ _ hpending hidle =>
        have horder := hy.order
        rw [hpending, List.append_nil] at horder
        rw [hidle, horder, hy.accepted]
    | between t hloop _ _ _ => exact nomatch hnone.symm.trans hloop
    | busy t n hloop _ _ _ => exact nomatch hnone.symm.trans hloop
  have hloop : ∀ {y : EventLoopDeferredExecutor} {t : Nat}, HandedOver y →
      y.currentLoop = some t → y.entering t = false →
      ∃ z, Settles y z ∧ finishes z.log = accepts z.log := by
    intro y t hy hcurrent hout
    obtain ⟨k, hk, hnone, -⟩ :=
      OnDemandDeferredExecutor.loop_drains _ _ hy.loopInv hcurrent (Nat.le_refl _)
    exact ⟨_, settles_advance hout k, hdone hk hnone⟩
  cases hcurrent : x.currentLoop with
  | none => exact ⟨x, .refl, hdone h.loopInv hcurrent⟩
  | some t =>
      cases hout : x.entering t with
      | false => exact hloop h hcurrent hout
      | true =>
          -- the task that runs is in the middle of a call
          have hnext : HandedOver (x.enterOnDemandLoop t) :=
            ⟨h.consuming, h.fns, h.pc, OnDemandDeferredExecutor.loopInv_deferToLoop h.loopInv t⟩
          have hcurrent' : (x.enterOnDemandLoop t).currentLoop = some t := by
            show (x.toOnDemandDeferredExecutor.deferToLoop t).currentLoop = some t
            rw [OnDemandDeferredExecutor.deferToLoop, hcurrent]
          obtain ⟨z, hz, hfin⟩ := hloop hnext hcurrent' (if_pos rfl)
          have hstep : Settles x (x.enterOnDemandLoop t) :=
            .step .refl (.enterOnDemandLoop t) rfl hout
          exact ⟨z, hstep.trans hz, hfin⟩

/-- **Drain lemma.** -/
theorem settles_phase (h : Threaded x ∨ HandedOver x) :
    ∃ y, Settles x y ∧ finishes y.log = accepts y.log := by
  rcases h with h | h
  · cases hpc : x.pc with
    | batch windingDown size rest current =>
        obtain ⟨y, hxy, hy, hbetween, -⟩ := settles_batch rest current x h hpc
        obtain ⟨z, hyz, hz, hbetween', hfns⟩ := settles_between hy hbetween
        exact ⟨z, hxy.trans hyz, threaded_done hz hbetween' hfns⟩
    | cleanUp => exact absurd hpc h.running.1
    | exited => exact absurd hpc h.running.2
    | _ =>
        obtain ⟨z, hxz, hz, hbetween, hfns⟩ := settles_between h (by rw [hpc]; rfl)
        exact ⟨z, hxz, threaded_done hz hbetween hfns⟩
  · exact settles_handedOver h

/-- A step of the loop's thread only adds to the log. -/
theorem loop_log (x : EventLoopDeferredExecutor) (answer : Bool) :
    ∃ es, (x.loop answer).log = x.log ++ es := by
  rw [loop]
  split
  case h_5 => exact ⟨_, rfl⟩
  case h_6 => exact ⟨_, rfl⟩
  case h_9 =>
    split
    · exact ⟨[], (List.append_nil _).symm⟩
    · exact ⟨[], (List.append_nil _).symm⟩
  all_goals exact ⟨[], (List.append_nil _).symm⟩

/-- A step of the on-demand loop only adds to the log. -/
theorem onDemand_log (x : OnDemandDeferredExecutor) (t : Nat) :
    (∃ es, (x.deferToLoop t).log = x.log ++ es) ∧ ∃ es, (x.advance t).log = x.log ++ es := by
  rw [OnDemandDeferredExecutor.deferToLoop, OnDemandDeferredExecutor.advance]
  constructor
  · split <;> exact ⟨_, rfl⟩
  · split
    · exact ⟨[], (List.append_nil _).symm⟩
    · split
      · exact ⟨[], (List.append_nil _).symm⟩
      · exact ⟨_, rfl⟩
    · exact ⟨_, rfl⟩

/-- What settles only adds to the log. -/
theorem settles_log (h : Settles x y) : ∃ es, y.log = x.log ++ es := by
  induction h with
  | refl => exact ⟨[], (List.append_nil _).symm⟩
  | @step y _ s hinternal _ ih =>
      obtain ⟨es, hes⟩ := ih
      have hstep : ∃ es', (y.step s).log = y.log ++ es' := by
        cases s with
        | enterOnDemandLoop t => exact (onDemand_log y.toOnDemandDeferredExecutor t).1
        | advance t => exact (onDemand_log y.toOnDemandDeferredExecutor t).2
        | loop answer => exact loop_log y answer
        | deferToLoop t => exact nomatch hinternal
        | stopBusyPolling => exact nomatch hinternal
      obtain ⟨es', hes'⟩ := hstep
      exact ⟨es ++ es', by rw [hes', hes, List.append_assoc]⟩

end Settling

-- ── The hand-over ────────────────────────────────────────────────────────────

/-- The tasks that were accepted and have not started, in the order in which they will. -/
def waiting (x : EventLoopDeferredExecutor) : List Nat := x.pc.rest ++ x.fns ++ x.pendingTasks

/-- What the executor promises. -/
structure HandOver (x : EventLoopDeferredExecutor) : Prop where
  /-- Tasks start in the order of the critical sections that accepted them. -/
  order : starts x.log ++ x.waiting = accepts x.log
  /-- No task starts twice. -/
  once : (starts x.log).Nodup
  /-- A task starts when those before it are finished. -/
  exclusive : Exclusive x.log
  /-- Every task that was accepted can still be run to its end. -/
  drained : ∃ y, Settles x y ∧ (∃ es, y.log = x.log ++ es) ∧ finishes y.log = accepts y.log
  /-- The thread leaves nothing behind in its queue. -/
  left : x.pc = .cleanUp ∨ x.pc = .exited → x.fns = []
  /-- The count covers the queue, and is exact between two iterations. -/
  covered : x.pc.inEventLoop = true → (x.fns.length : Int) ≤ x.deferredFunctionCount
  exact : x.pc = .top → x.deferredFunctionCount = x.fns.length
  /-- A loop with nothing to poll takes what is queued. -/
  awake : x.pc = .idle → x.fns ≠ [] → ∀ answer, (x.loop answer).pc = .swapping

/-- **Hand-over.**  In every state of every run, whichever threads defer, and whenever the
    loop is closed. -/
theorem hand_over {x : EventLoopDeferredExecutor} (h : Reachable x) : HandOver x := by
  have hphase := phase_reachable h
  have horder : starts x.log ++ x.waiting = List.range x.next ∧ accepts x.log = List.range x.next
      ∧ Exclusive x.log := by
    rcases hphase with hx | hx
    · refine ⟨?_, hx.accepted, hx.exclusive⟩
      rw [waiting, hx.pending, List.append_nil]
      exact hx.order
    · refine ⟨?_, hx.loopInv.accepted, hx.loopInv.exclusive⟩
      have hrest : x.pc.rest = [] := by
        rcases hx.pc with hpc | hpc <;> rw [hpc] <;> rfl
      rw [waiting, hrest, hx.fns]
      exact hx.loopInv.order
  obtain ⟨hwaiting, haccepted, hexclusive⟩ := horder
  have hcounted : x.pc.inEventLoop = true →
      x.deferredFunctionCount = x.fns.length + x.pc.size := by
    intro hin
    rcases hphase with hx | hx
    · exact hx.counted hin
    · rcases hx.pc with hpc | hpc <;> rw [hpc] at hin <;> exact nomatch hin
  refine ⟨hwaiting.trans haccepted.symm, ?_, hexclusive, ?_, fun hpc => ?_, fun hin => ?_,
    fun hpc => ?_, fun hpc hfns answer => ?_⟩
  · have hnodup : (starts x.log ++ x.waiting).Nodup := by
      rw [hwaiting]
      exact List.nodup_range
    exact (List.nodup_append.mp hnodup).1
  · obtain ⟨y, hy, hfin⟩ := settles_phase hphase
    exact ⟨y, hy, settles_log hy, hfin⟩
  · rcases hphase with hx | hx
    · rcases hpc with hpc | hpc
      · exact absurd hpc hx.running.1
      · exact absurd hpc hx.running.2
    · exact hx.fns
  · have hcount := hcounted hin
    omega
  · have hcount := hcounted (by rw [hpc]; rfl)
    rw [hpc] at hcount
    exact hcount.trans (Int.add_zero _)
  · have hcount := hcounted (by rw [hpc]; rfl)
    have hpos : 0 < x.deferredFunctionCount := by
      rw [hcount]
      have := List.length_pos_iff.mpr hfns
      omega
    rw [loop, hpc]
    exact if_pos hpos

/-- A task that is deferred while the loop winds down, after the thread looked. -/
theorem hand_over_late : ∃ x, Reachable x ∧ HandOver x ∧ x.fns = [] ∧ x.pendingTasks = [1]
    ∧ starts x.log = [0] := by
  have hrun : Reachable _ :=
    .step (.step (.step (.step (.step (.step (.step (.step (.init true) .stopBusyPolling trivial)
      (.deferToLoop 5) ⟨rfl, Or.inl rfl, nofun⟩) (.loop true) ⟨rfl, rfl⟩) (.loop true) ⟨rfl, rfl⟩)
      (.loop true) ⟨rfl, rfl⟩) (.loop true) ⟨rfl, rfl⟩) (.loop true) ⟨rfl, rfl⟩)
      (.loop true) ⟨rfl, rfl⟩
  have hlate : Reachable _ :=
    .step (.step hrun (.deferToLoop 6) ⟨rfl, Or.inl rfl, nofun⟩) (.enterOnDemandLoop 6) rfl
  exact ⟨_, hlate, hand_over hlate, rfl, rfl, rfl⟩

end EventLoopDeferredExecutor

end TpExecutor
