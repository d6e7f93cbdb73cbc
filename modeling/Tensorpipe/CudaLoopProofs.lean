import Mathlib.Data.List.Basic
import Tensorpipe.FairRunProofs

/-! # The CUDA loop

    Callbacks are accepted under the lock, handed to CUDA outside it, put into `operations_` by
    CUDA's thread under the lock, and taken out by the loop's thread, which invokes them without
    the lock.  Each callback is in one place at a time (`Accounts`), and `pendingOperations_`
    counts those that are on their way to the thread.

    The thread waits only while `operations_` is empty, and whoever adds to it notifies, so a
    callback that has been added is taken (`taken_of_added`); the thread exits when nothing is
    on its way, so nothing is left behind.

    The critical sections are atomic.  A callback is invoked in one step; what it calls itself
    are steps of their own. -/

namespace TpCudaLoop

open TpFair

/-- What a callback is given. -/
inductive Error
  | kSuccess
  | cudaError (code : Nat)
  | cudaLoopClosedError
  deriving DecidableEq, Repr

/-- An element of `operations_`; callbacks are numbered in the order of the calls. -/
structure Operation where
  callback : Nat
  error : Error
  deriving DecidableEq, Repr

/-- Where the thread is in `processCallbacks`: in front of the lock, waiting on the condition
    variable, invoking what it took, or past the loop. -/
inductive Thread
  | top
  | waiting (woken : Bool)
  | invoking (operations : List Operation)
  | exited
  deriving DecidableEq, Repr

/-- What the thread took and has not invoked. -/
def Thread.operations : Thread → List Operation
  | .invoking operations => operations
  | _ => []

/-- `cv_.notify_all()`. -/
def Thread.notifyAll : Thread → Thread
  | .waiting _ => .waiting true
  | thread => thread

/-- Waking the thread takes nothing from it. -/
@[simp] theorem Thread.notifyAll_operations (thread : Thread) :
    thread.notifyAll.operations = thread.operations := by
  cases thread <;> rfl

/-- Who was notified does not sleep. -/
theorem Thread.notifyAll_ne (thread : Thread) : thread.notifyAll ≠ .waiting false := by
  cases thread <;> exact nofun

/-- Waking the thread does not end it. -/
theorem Thread.notifyAll_exited {thread : Thread} (h : thread.notifyAll = .exited) :
    thread = .exited := by
  cases thread with
  | waiting woken => exact nomatch h
  | exited => rfl
  | top => exact nomatch h
  | invoking ops => exact nomatch h

/-- How much the thread has to do until it looks at `operations_` again. -/
def Thread.left : Thread → Nat
  | .top => 0
  | .waiting _ => 2
  | .invoking operations => operations.length + 1
  | .exited => 0

/-- Waking the thread leaves it what it still has to call. -/
theorem Thread.notifyAll_left (thread : Thread) : thread.notifyAll.left = thread.left := by
  cases thread <;> rfl

/-- The queue of the loop, and where its thread is. -/
structure CudaLoop where
  operations : List Operation := []
  pendingOperations : Nat := 0
  closed : Bool := false
  thread : Thread := .top
  /-- Accepted by calls that have not reached `cudaStreamAddCallback`. -/
  accepted : List Nat := []
  /-- Added to a stream, not run by CUDA. -/
  streams : List Nat := []
  /-- How many calls of `addCallback` there were. -/
  calls : Nat := 0
  /-- The callbacks that were invoked. -/
  invoked : List Operation := []
  deriving DecidableEq, Repr

namespace CudaLoop

/-- A call of `close`, which wakes the thread. -/
def close (x : CudaLoop) : CudaLoop :=
  if x.closed then x
  else { x with closed := true, thread := x.thread.notifyAll }

/-- The critical section of `addCallback`. -/
def addCallback (x : CudaLoop) : CudaLoop :=
  if x.closed then
    { x with calls := x.calls + 1, invoked := x.invoked ++ [⟨x.calls, .cudaLoopClosedError⟩] }
  else
    { x with calls := x.calls + 1, pendingOperations := x.pendingOperations + 1,
             accepted := x.accepted ++ [x.calls] }

/-- `cudaStreamAddCallback`, called by an accepted call. -/
def cudaStreamAddCallback (x : CudaLoop) (callback : Nat) : Option CudaLoop :=
  if callback ∈ x.accepted then
    some { x with accepted := x.accepted.erase callback, streams := x.streams ++ [callback] }
  else none

/-- CUDA runs a callback that was added to a stream, with the error of the stream if any. -/
def runCudaCallback (x : CudaLoop) (callback : Nat) (cudaError : Option Nat) : Option CudaLoop :=
  if callback ∈ x.streams then
    let error := match cudaError with
      | none => Error.kSuccess
      | some code => .cudaError code
    some { x with streams := x.streams.erase callback,
                  operations := x.operations ++ [⟨callback, error⟩],
                  thread := x.thread.notifyAll }
  else none

/-- The end of the thread's critical section. -/
def takeOperations (x : CudaLoop) : CudaLoop :=
  { x with operations := [], pendingOperations := x.pendingOperations - x.operations.length,
           thread := .invoking x.operations }

/-- The thread's next step in `processCallbacks`. -/
def processCallbacks (x : CudaLoop) : Option CudaLoop :=
  match x.thread with
  | .top =>
      if x.operations = [] then
        if x.closed ∧ x.pendingOperations = 0 then some { x with thread := .exited }
        else some { x with thread := .waiting false }
      else some x.takeOperations
  | .waiting woken => if woken then some x.takeOperations else none
  | .invoking [] => some { x with thread := .top }
  | .invoking (op :: rest) =>
      some { x with thread := .invoking rest, invoked := x.invoked ++ [op] }
  | .exited => none

/-- The thread wakes up without having been notified. -/
def wakeUp (x : CudaLoop) : Option CudaLoop :=
  match x.thread with
  | .waiting _ => some { x with thread := .waiting true }
  | _ => none

/-- The steps of the callers, of CUDA and of the thread. -/
inductive Event
  | addCallback
  | cudaStreamAddCallback (callback : Nat)
  | runCudaCallback (callback : Nat) (cudaError : Option Nat)
  | close
  | processCallbacks
  | wakeUp
  deriving DecidableEq, Repr

/-- One step of the loop. -/
def step (x : CudaLoop) : Event → Option CudaLoop
  | .addCallback => some x.addCallback
  | .cudaStreamAddCallback callback => x.cudaStreamAddCallback callback
  | .runCudaCallback callback cudaError => x.runCudaCallback callback cudaError
  | .close => some x.close
  | .processCallbacks => x.processCallbacks
  | .wakeUp => x.wakeUp

-- ── What a step does ─────────────────────────────────────────────────────────

/-- The steps, each with what it needs and what it leaves. -/
inductive Moves (x : CudaLoop) : Event → CudaLoop → Prop
  | refuse (hclosed : x.closed = true) : Moves x .addCallback
      { x with calls := x.calls + 1, invoked := x.invoked ++ [⟨x.calls, .cudaLoopClosedError⟩] }
  | accept (hopen : x.closed = false) : Moves x .addCallback
      { x with calls := x.calls + 1, pendingOperations := x.pendingOperations + 1,
               accepted := x.accepted ++ [x.calls] }
  | stream {callback : Nat} (hmem : callback ∈ x.accepted) :
      Moves x (.cudaStreamAddCallback callback)
        { x with accepted := x.accepted.erase callback, streams := x.streams ++ [callback] }
  | add {callback : Nat} {cudaError : Option Nat} (error : Error) (hmem : callback ∈ x.streams)
      (herror : error ≠ .cudaLoopClosedError) :
      Moves x (.runCudaCallback callback cudaError)
        { x with streams := x.streams.erase callback,
                 operations := x.operations ++ [⟨callback, error⟩],
                 thread := x.thread.notifyAll }
  | again (hclosed : x.closed = true) : Moves x .close x
  | close (hopen : x.closed = false) :
      Moves x .close { x with closed := true, thread := x.thread.notifyAll }
  | exit (hthread : x.thread = .top) (hempty : x.operations = []) (hclosed : x.closed = true)
      (hpending : x.pendingOperations = 0) :
      Moves x .processCallbacks { x with thread := .exited }
  | sleep (hthread : x.thread = .top) (hempty : x.operations = [])
      (hwork : x.closed = true → x.pendingOperations ≠ 0) :
      Moves x .processCallbacks { x with thread := .waiting false }
  | take (hthread : x.thread = .top ∧ x.operations ≠ [] ∨ x.thread = .waiting true) :
      Moves x .processCallbacks x.takeOperations
  | again_top (hthread : x.thread = .invoking []) :
      Moves x .processCallbacks { x with thread := .top }
  | invoke {op : Operation} {rest : List Operation} (hthread : x.thread = .invoking (op :: rest)) :
      Moves x .processCallbacks
        { x with thread := .invoking rest, invoked := x.invoked ++ [op] }
  | wake {woken : Bool} (hthread : x.thread = .waiting woken) :
      Moves x .wakeUp { x with thread := .waiting true }

variable {x x' : CudaLoop}

/-- What a step of the thread moves. -/
theorem moves_processCallbacks (hstep : x.processCallbacks = some x') :
    Moves x .processCallbacks x' := by
  unfold processCallbacks at hstep
  cases hthread : x.thread with
  | top =>
      rw [hthread] at hstep
      by_cases hempty : x.operations = []
      · rw [if_pos hempty] at hstep
        by_cases hdone : x.closed = true ∧ x.pendingOperations = 0
        · rw [if_pos hdone] at hstep
          obtain rfl := Option.some.inj hstep
          exact .exit hthread hempty hdone.1 hdone.2
        · rw [if_neg hdone] at hstep
          obtain rfl := Option.some.inj hstep
          exact .sleep hthread hempty (fun hclosed hzero => hdone ⟨hclosed, hzero⟩)
      · rw [if_neg hempty] at hstep
        obtain rfl := Option.some.inj hstep
        exact .take (Or.inl ⟨hthread, hempty⟩)
  | waiting woken =>
      rw [hthread] at hstep
      cases woken with
      | true =>
          obtain rfl := Option.some.inj hstep
          exact .take (Or.inr hthread)
      | false => exact nomatch hstep
  | invoking ops =>
      rw [hthread] at hstep
      cases ops with
      | nil =>
          obtain rfl := Option.some.inj hstep
          exact .again_top hthread
      | cons op rest =>
          obtain rfl := Option.some.inj hstep
          exact .invoke hthread
  | exited =>
      rw [hthread] at hstep
      exact nomatch hstep

/-- What each step moves. -/
theorem moves_of_step {e : Event} (hstep : x.step e = some x') : Moves x e x' := by
  cases e with
  | addCallback =>
      obtain rfl := Option.some.inj hstep
      rw [addCallback]
      split
      · next hclosed => exact .refuse hclosed
      · next hopen => exact .accept (eq_false_of_ne_true hopen)
  | cudaStreamAddCallback callback =>
      rw [step, cudaStreamAddCallback] at hstep
      split at hstep
      · next hmem =>
        obtain rfl := Option.some.inj hstep
        exact .stream hmem
      · exact nomatch hstep
  | runCudaCallback callback cudaError =>
      change x.runCudaCallback callback cudaError = some x' at hstep
      unfold runCudaCallback at hstep
      split at hstep
      · next hmem =>
        obtain rfl := Option.some.inj hstep
        refine .add _ hmem ?_
        cases cudaError <;> exact nofun
      · exact nomatch hstep
  | close =>
      obtain rfl := Option.some.inj hstep
      rw [CudaLoop.close]
      split
      · next hclosed => exact .again hclosed
      · next hopen => exact .close (eq_false_of_ne_true hopen)
  | processCallbacks => exact moves_processCallbacks hstep
  | wakeUp =>
      rw [step, wakeUp] at hstep
      split at hstep
      · next hthread =>
        obtain rfl := Option.some.inj hstep
        exact .wake hthread
      · exact nomatch hstep

-- ── Where a callback is ──────────────────────────────────────────────────────

/-- How often a callback is among operations. -/
def copies (callback : Nat) (ops : List Operation) : Nat := ops.countP (·.callback = callback)

/-- No operation has the callback. -/
@[simp] theorem copies_nil (callback : Nat) : copies callback [] = 0 := rfl

/-- The first operation, and the others. -/
@[simp] theorem copies_cons (callback : Nat) (op : Operation) (ops : List Operation) :
    copies callback (op :: ops)
      = copies callback ops + if op.callback = callback then 1 else 0 := by
  simp only [copies, List.countP_cons, decide_eq_true_eq]

/-- The operations of both lists. -/
@[simp] theorem copies_append (callback : Nat) (ops ops' : List Operation) :
    copies callback (ops ++ ops') = copies callback ops + copies callback ops' :=
  List.countP_append

/-- How often a callback is on its way to the thread. -/
def onTheWay (x : CudaLoop) (callback : Nat) : Nat :=
  x.accepted.count callback + x.streams.count callback + copies callback x.operations

/-- How often a callback is with the thread or was invoked. -/
def served (x : CudaLoop) (callback : Nat) : Nat :=
  copies callback x.thread.operations + copies callback x.invoked

/-- **What every reachable state has.**  Every callback that was passed is in one place;
    `pendingOperations_` counts those that are on their way; the thread sleeps and exits only
    when there is nothing for it to do. -/
structure Accounts (x : CudaLoop) : Prop where
  placed : ∀ callback,
    x.onTheWay callback + x.served callback = if callback < x.calls then 1 else 0
  pending : x.pendingOperations = x.accepted.length + x.streams.length + x.operations.length
  asleep : x.thread = .waiting false →
    x.operations = [] ∧ (x.closed = true → x.pendingOperations ≠ 0)
  exited : x.thread = .exited → x.closed = true ∧ x.pendingOperations = 0
  errors : ∀ op ∈ x.operations ++ x.thread.operations, op.error ≠ .cudaLoopClosedError

/-- A new loop has no callbacks. -/
theorem accounts_init : Accounts {} where
  placed := fun _ => rfl
  pending := rfl
  asleep := fun h => nomatch h
  exited := fun h => nomatch h
  errors := fun _ h => nomatch h

-- ── Every step keeps the accounts ────────────────────────────────────────────

/-- What is erased is counted once less. -/
theorem count_erase_add {c callback : Nat} {l : List Nat} (h : callback ∈ l) :
    (l.erase callback).count c + (if callback = c then 1 else 0) = l.count c := by
  rw [(List.perm_cons_erase h).count_eq c, List.count_cons]
  simp only [beq_iff_eq]

/-- What is erased makes the list shorter by one. -/
theorem length_erase_add {callback : Nat} {l : List Nat} (h : callback ∈ l) :
    (l.erase callback).length + 1 = l.length := by
  have hpos := List.length_pos_of_mem h
  rw [List.length_erase_of_mem h]
  omega

/-- A call adds one callback, whose number is the next. -/
theorem one_more {c calls copies : Nat} (h : copies = if c < calls then 1 else 0) :
    copies + (if calls = c then 1 else 0) = if c < calls + 1 then 1 else 0 := by
  subst h
  by_cases hlast : calls = c
  · rw [if_pos hlast, if_neg (by omega), if_pos (by omega)]
  · rw [if_neg hlast]
    by_cases hlt : c < calls
    · rw [if_pos hlt, if_pos (by omega)]
    · rw [if_neg hlt, if_neg (by omega)]

/-- What the thread takes is counted: the subtraction is exact. -/
theorem accounts_takeOperations (h : Accounts x) (hidle : x.thread.operations = []) :
    Accounts x.takeOperations := by
  obtain ⟨placed, pending, -, -, errors⟩ := h
  refine ⟨?_, ?_, fun hwait => (nomatch hwait), fun hexit => (nomatch hexit), ?_⟩
  · intro c
    have hc := placed c
    simp only [onTheWay, served, hidle, copies_nil] at hc
    show x.accepted.count c + x.streams.count c + 0
      + (copies c x.operations + copies c x.invoked) = _
    exact Eq.trans (by omega) hc
  · simp only [takeOperations, List.length_nil]
    omega
  · rw [hidle, List.append_nil] at errors
    exact errors

/-- The thread goes on with the operations it has. -/
theorem accounts_thread (h : Accounts x) {thread : Thread}
    (hsame : thread.operations = x.thread.operations)
    (hasleep : thread = .waiting false →
      x.operations = [] ∧ (x.closed = true → x.pendingOperations ≠ 0))
    (hexited : thread = .exited → x.closed = true ∧ x.pendingOperations = 0) :
    Accounts { x with thread } where
  placed := by
    intro c
    rw [← h.placed c]
    simp only [onTheWay, served, hsame]
  pending := h.pending
  asleep := hasleep
  exited := hexited
  errors := by
    show ∀ op ∈ x.operations ++ thread.operations, op.error ≠ .cudaLoopClosedError
    rw [hsame]
    exact h.errors

/-- A callback that `addCallback` accepts is counted as pending. -/
theorem accounts_accept (h : Accounts x) (hopen : x.closed = false) :
    Accounts { x with calls := x.calls + 1, pendingOperations := x.pendingOperations + 1,
                      accepted := x.accepted ++ [x.calls] } := by
  obtain ⟨placed, pending, asleep, exited, errors⟩ := h
  refine ⟨?_, ?_, ?_, ?_, errors⟩
  · intro c
    rw [← one_more (placed c)]
    simp only [onTheWay, served, List.count_append, List.count_cons, List.count_nil,
      beq_iff_eq]
    omega
  · simp only [List.length_append, List.length_singleton]
    omega
  · exact fun hwait => ⟨(asleep hwait).1, fun _ => Nat.succ_ne_zero _⟩
  · exact fun hexit => (nomatch hopen.symm.trans (exited hexit).1)

/-- A callback that CUDA runs moves from its stream to the operations, and wakes the thread. -/
theorem accounts_add (h : Accounts x) {callback : Nat} {error : Error}
    (hmem : callback ∈ x.streams) (herror : error ≠ .cudaLoopClosedError) :
    Accounts { x with streams := x.streams.erase callback,
                      operations := x.operations ++ [⟨callback, error⟩],
                      thread := x.thread.notifyAll } := by
  obtain ⟨placed, pending, asleep, exited, errors⟩ := h
  refine ⟨?_, ?_, ?_, ?_, ?_⟩
  · intro c
    have hc := placed c
    have herase := count_erase_add (c := c) hmem
    simp only [onTheWay, served, copies_append, copies_cons, copies_nil,
      Thread.notifyAll_operations] at hc ⊢
    omega
  · have herase := length_erase_add hmem
    simp only [List.length_append, List.length_singleton]
    omega
  · exact fun hwait => absurd hwait x.thread.notifyAll_ne
  · exact fun hexit => exited (Thread.notifyAll_exited hexit)
  · intro op hop
    rw [Thread.notifyAll_operations, List.append_assoc, List.mem_append] at hop
    rcases hop with hop | hop
    · exact errors op (List.mem_append_left _ hop)
    · rcases List.mem_cons.mp hop with rfl | hop
      · exact herror
      · exact errors op (List.mem_append_right _ hop)

/-- The thread invokes the first of its callbacks. -/
theorem accounts_invoke (h : Accounts x) {op : Operation} {rest : List Operation}
    (hthread : x.thread = .invoking (op :: rest)) :
    Accounts { x with thread := .invoking rest, invoked := x.invoked ++ [op] } := by
  obtain ⟨placed, pending, -, -, errors⟩ := h
  refine ⟨?_, pending, fun hwait => (nomatch hwait), fun hexit => (nomatch hexit), ?_⟩
  · intro c
    have hc := placed c
    rw [served, hthread] at hc
    simp only [onTheWay, served, Thread.operations, copies_append, copies_cons,
      copies_nil] at hc ⊢
    omega
  · intro op' hop'
    rw [hthread] at errors
    rcases List.mem_append.mp hop' with hop' | hop'
    · exact errors op' (List.mem_append_left _ hop')
    · exact errors op' (List.mem_append_right _ (List.mem_cons_of_mem _ hop'))

/-- **Step lemma**: every step keeps the accounts. -/
theorem accounts_moves {e : Event} (h : Accounts x) (hmoves : Moves x e x') : Accounts x' := by
  cases hmoves with
  | refuse hclosed =>
      obtain ⟨placed, pending, asleep, exited, errors⟩ := h
      refine ⟨?_, pending, asleep, exited, errors⟩
      intro c
      rw [← one_more (placed c)]
      simp only [onTheWay, served, copies_append, copies_cons, copies_nil]
      omega
  | accept hopen => exact accounts_accept h hopen
  | stream hmem =>
      obtain ⟨placed, pending, asleep, exited, errors⟩ := h
      refine ⟨?_, ?_, asleep, exited, errors⟩
      · intro c
        have hc := placed c
        have herase := count_erase_add (c := c) hmem
        simp only [onTheWay, served, List.count_append, List.count_cons, List.count_nil,
          beq_iff_eq] at hc ⊢
        omega
      · have herase := length_erase_add hmem
        simp only [List.length_append, List.length_singleton]
        omega
  | add error hmem herror => exact accounts_add h hmem herror
  | again hclosed => exact h
  | close hopen =>
      obtain ⟨placed, pending, -, exited, errors⟩ := h
      refine ⟨?_, pending, ?_, ?_, ?_⟩
      · intro c
        simpa only [onTheWay, served, Thread.notifyAll_operations] using placed c
      · exact fun hwait => absurd hwait x.thread.notifyAll_ne
      · exact fun hexit => ⟨rfl, (exited (Thread.notifyAll_exited hexit)).2⟩
      · simpa only [Thread.notifyAll_operations] using errors
  | exit hthread hempty hclosed hpending =>
      refine accounts_thread h ?_ (fun hwait => absurd hwait (by simp))
        (fun _ => ⟨hclosed, hpending⟩)
      rw [hthread]
      rfl
  | sleep hthread hempty hwork =>
      refine accounts_thread h ?_ (fun _ => ⟨hempty, hwork⟩)
        (fun hexit => absurd hexit (by simp))
      rw [hthread]
      rfl
  | take hthread =>
      refine accounts_takeOperations h ?_
      rcases hthread with ⟨hthread, -⟩ | hthread <;> rw [hthread] <;> rfl
  | again_top hthread =>
      refine accounts_thread h ?_ (fun hwait => absurd hwait (by simp))
        (fun hexit => absurd hexit (by simp))
      rw [hthread]
      rfl
  | invoke hthread => exact accounts_invoke h hthread
  | wake hthread =>
      refine accounts_thread h ?_ (fun hwait => absurd hwait (by simp))
        (fun hexit => absurd hexit (by simp))
      rw [hthread]
      rfl

/-- Each step keeps the account of the callbacks. -/
theorem accounts_step {e : Event} (h : Accounts x) (hstep : x.step e = some x') :
    Accounts x' :=
  accounts_moves h (moves_of_step hstep)

-- ── The way of a callback ────────────────────────────────────────────────────

/-- A callback is counted when it is there, with or without an error. -/
theorem copies_pos_iff {c : Nat} {ops : List Operation} :
    0 < copies c ops ↔ ∃ error, ⟨c, error⟩ ∈ ops := by
  rw [copies, List.countP_pos_iff]
  constructor
  · rintro ⟨⟨callback, error⟩, hop, heq⟩
    exact ⟨error, of_decide_eq_true heq ▸ hop⟩
  · rintro ⟨error, hop⟩
    exact ⟨_, hop, decide_eq_true rfl⟩

/-- What was invoked stays invoked. -/
theorem invoked_moves {e : Event} (hmoves : Moves x e x') {op : Operation}
    (h : op ∈ x.invoked) : op ∈ x'.invoked := by
  cases hmoves with
  | refuse _ => exact List.mem_append_left _ h
  | invoke _ => exact List.mem_append_left _ h
  | _ => exact h

/-- The thread is not stopped. -/
theorem processCallbacks_ne_none (hthread : x.thread ≠ .waiting false)
    (hexited : x.thread ≠ .exited) : x.processCallbacks ≠ none := by
  unfold processCallbacks
  cases hcase : x.thread with
  | top =>
      dsimp only
      split
      · split <;> exact nofun
      · exact nofun
  | waiting woken =>
      cases woken with
      | true => exact nofun
      | false => exact absurd hcase hthread
  | invoking ops => cases ops <;> exact nofun
  | exited => exact absurd hcase hexited

section Liveness

variable {r : Run step {}} {n : Nat}

/-- Every run keeps the account of the callbacks. -/
theorem accounts_run (r : Run step {}) (n : Nat) : Accounts (r.state n) :=
  r.invariant accounts_init (fun _ _ _ => accounts_step) n

/-- A call that was accepted adds its callback to a stream. -/
theorem streamed_of_accepted {c : Nat}
    (hfair : r.WeakFair (fun e => e = .cudaStreamAddCallback c))
    (h : c ∈ (r.state n).accepted) : ∃ m, n ≤ m ∧ c ∈ (r.state m).streams := by
  refine hfair.leadsTo (p := fun x => c ∈ x.accepted) (q := fun x => c ∈ x.streams) (fun _ => 0)
    ?_ ?_ h
  · intro x hmem
    refine ⟨_, rfl, ?_⟩
    show x.cudaStreamAddCallback c ≠ none
    rw [CudaLoop.cudaStreamAddCallback, if_pos hmem]
    exact nofun
  · intro x e x' hmem hstep
    cases moves_of_step hstep with
    | @stream callback _ =>
        by_cases heq : callback = c
        · exact Or.inl (List.mem_append_right _ (List.mem_singleton.mpr heq.symm))
        · refine Or.inr ⟨(List.mem_erase_of_ne (Ne.symm heq)).mpr hmem, Nat.le_refl 0, ?_⟩
          exact fun htaken => absurd (Event.cudaStreamAddCallback.inj htaken) heq
    | accept _ => exact Or.inr ⟨List.mem_append_left _ hmem, Nat.le_refl 0, nofun⟩
    | _ => exact Or.inr ⟨hmem, Nat.le_refl 0, nofun⟩

/-- CUDA runs what was added to a stream. -/
theorem added_of_streamed {c : Nat}
    (hfair : r.WeakFair (fun e => ∃ cudaError, e = .runCudaCallback c cudaError))
    (h : c ∈ (r.state n).streams) :
    ∃ m, n ≤ m ∧ ∃ error, ⟨c, error⟩ ∈ (r.state m).operations := by
  refine hfair.leadsTo (p := fun x => c ∈ x.streams)
    (q := fun x => ∃ error, ⟨c, error⟩ ∈ x.operations) (fun _ => 0) ?_ ?_ h
  · intro x hmem
    refine ⟨_, ⟨none, rfl⟩, ?_⟩
    show x.runCudaCallback c none ≠ none
    rw [CudaLoop.runCudaCallback, if_pos hmem]
    exact nofun
  · intro x e x' hmem hstep
    cases moves_of_step hstep with
    | @add callback _ error _ _ =>
        by_cases heq : callback = c
        · exact Or.inl ⟨error, List.mem_append_right _ (heq ▸ List.mem_singleton_self _)⟩
        · refine Or.inr ⟨(List.mem_erase_of_ne (Ne.symm heq)).mpr hmem, Nat.le_refl 0, ?_⟩
          rintro ⟨_, htaken⟩
          exact absurd (Event.runCudaCallback.inj htaken).1 heq
    | stream _ => exact Or.inr ⟨List.mem_append_left _ hmem, Nat.le_refl 0, nofun⟩
    | _ => exact Or.inr ⟨hmem, Nat.le_refl 0, nofun⟩

/-- **The thread takes what was added**: it finishes what it has and looks again; it does not
    sleep, because whoever added has notified it. -/
theorem taken_of_added {op : Operation} (hfair : r.WeakFair (fun e => e = .processCallbacks))
    (h : op ∈ (r.state n).operations) :
    ∃ m, n ≤ m ∧ op ∈ (r.state m).thread.operations := by
  refine hfair.leadsTo (p := fun x => Accounts x ∧ op ∈ x.operations)
    (q := fun x => op ∈ x.thread.operations) (fun x => x.thread.left) ?_ ?_
    ⟨accounts_run r n, h⟩
  · rintro x ⟨haccounts, hop⟩
    refine ⟨_, rfl, processCallbacks_ne_none ?_ ?_⟩
    · intro hasleep
      rw [(haccounts.asleep hasleep).1] at hop
      exact nomatch hop
    · intro hexited
      have hzero := (haccounts.exited hexited).2
      have hpos := List.length_pos_of_mem hop
      rw [haccounts.pending] at hzero
      omega
  · rintro x e x' ⟨haccounts, hop⟩ hstep
    have haccounts' := accounts_step haccounts hstep
    cases moves_of_step hstep with
    | add _ _ _ =>
        exact Or.inr ⟨⟨haccounts', List.mem_append_left _ hop⟩,
          Nat.le_of_eq x.thread.notifyAll_left, nofun⟩
    | close _ =>
        exact Or.inr ⟨⟨haccounts', hop⟩, Nat.le_of_eq x.thread.notifyAll_left, nofun⟩
    | exit _ hempty _ _ => exact absurd (hempty ▸ hop) List.not_mem_nil
    | sleep _ hempty _ => exact absurd (hempty ▸ hop) List.not_mem_nil
    | take _ => exact Or.inl hop
    | again_top hthread =>
        have hless : Thread.top.left < x.thread.left := by rw [hthread]; exact Nat.one_pos
        exact Or.inr ⟨⟨haccounts', hop⟩, Nat.le_of_lt hless, fun _ => hless⟩
    | @invoke op' rest hthread =>
        have hless : (Thread.invoking rest).left < x.thread.left := by
          rw [hthread]
          exact Nat.lt_succ_self _
        exact Or.inr ⟨⟨haccounts', hop⟩, Nat.le_of_lt hless, fun _ => hless⟩
    | wake hthread =>
        have hsame : (Thread.waiting true).left = x.thread.left := by rw [hthread]; rfl
        exact Or.inr ⟨⟨haccounts', hop⟩, Nat.le_of_eq hsame, nofun⟩
    | _ => exact Or.inr ⟨⟨haccounts', hop⟩, Nat.le_refl _, nofun⟩

/-- The thread invokes what it took. -/
theorem invoked_of_taken {op : Operation} (hfair : r.WeakFair (fun e => e = .processCallbacks))
    (h : op ∈ (r.state n).thread.operations) :
    ∃ m, n ≤ m ∧ op ∈ (r.state m).invoked := by
  refine hfair.leadsTo (p := fun x => op ∈ x.thread.operations)
    (q := fun x => op ∈ x.invoked) (fun x => x.thread.left) ?_ ?_ h
  · intro x hop
    refine ⟨_, rfl, processCallbacks_ne_none ?_ ?_⟩
    · intro hasleep
      rw [hasleep] at hop
      exact nomatch hop
    · intro hexited
      rw [hexited] at hop
      exact nomatch hop
  · intro x e x' hop hstep
    cases moves_of_step hstep with
    | add _ _ _ =>
        rw [← x.thread.notifyAll_operations] at hop
        exact Or.inr ⟨hop, Nat.le_of_eq x.thread.notifyAll_left, nofun⟩
    | close _ =>
        rw [← x.thread.notifyAll_operations] at hop
        exact Or.inr ⟨hop, Nat.le_of_eq x.thread.notifyAll_left, nofun⟩
    | @invoke op' rest hthread =>
        rw [hthread] at hop
        rcases List.mem_cons.mp hop with rfl | hrest
        · exact Or.inl (List.mem_append_right _ (List.mem_singleton_self _))
        · have hless : (Thread.invoking rest).left < x.thread.left := by
            rw [hthread]
            exact Nat.lt_succ_self _
          exact Or.inr ⟨hrest, Nat.le_of_lt hless, fun _ => hless⟩
    | exit hthread _ _ _ => exact absurd (hthread ▸ hop) List.not_mem_nil
    | sleep hthread _ _ => exact absurd (hthread ▸ hop) List.not_mem_nil
    | take hthread =>
        rcases hthread with ⟨hthread, -⟩ | hthread <;>
          exact absurd (hthread ▸ hop) List.not_mem_nil
    | again_top hthread => exact absurd (hthread ▸ hop) List.not_mem_nil
    | wake hthread => exact absurd (hthread ▸ hop) List.not_mem_nil
    | _ => exact Or.inr ⟨hop, Nat.le_refl _, nofun⟩

/-- What a run is fair to: an accepted call goes on, CUDA runs what was added to a stream, and
    the thread is scheduled. -/
structure Fair (r : Run step {}) : Prop where
  calls : ∀ c, r.WeakFair (fun e => e = .cudaStreamAddCallback c)
  cuda : ∀ c, r.WeakFair (fun e => ∃ cudaError, e = .runCudaCallback c cudaError)
  thread : r.WeakFair (fun e => e = .processCallbacks)

/-- What was added is invoked, with the error that it was added with. -/
theorem invoked_of_added (hfair : Fair r) {op : Operation}
    (h : op ∈ (r.state n).operations) : ∃ m, n ≤ m ∧ op ∈ (r.state m).invoked := by
  obtain ⟨m, hm, htaken⟩ := taken_of_added hfair.thread h
  obtain ⟨k, hk, hinvoked⟩ := invoked_of_taken hfair.thread htaken
  exact ⟨k, Nat.le_trans hm hk, hinvoked⟩

/-- **A callback that is accepted is invoked**, and not with the error of a closed loop. -/
theorem invoked_of_accepted (hfair : Fair r) {c : Nat} (h : c ∈ (r.state n).accepted) :
    ∃ m, n ≤ m ∧ ∃ error, error ≠ .cudaLoopClosedError ∧ ⟨c, error⟩ ∈ (r.state m).invoked := by
  obtain ⟨k, hk, hstream⟩ := streamed_of_accepted (hfair.calls c) h
  obtain ⟨l, hl, error, hadded⟩ := added_of_streamed (hfair.cuda c) hstream
  obtain ⟨m, hm, hinvoked⟩ := invoked_of_added hfair hadded
  have herror := (accounts_run r l).errors _ (List.mem_append_left _ hadded)
  exact ⟨m, Nat.le_trans hk (Nat.le_trans hl hm), error, herror, hinvoked⟩

/-- Wherever a callback is, it is invoked. -/
theorem invoked_of_lt (hfair : Fair r) {c : Nat} (h : c < (r.state n).calls) :
    ∃ m, n ≤ m ∧ 0 < copies c (r.state m).invoked := by
  have hplaced := (accounts_run r n).placed c
  rw [if_pos h] at hplaced
  by_cases hinvoked : 0 < copies c (r.state n).invoked
  · exact ⟨n, Nat.le_refl n, hinvoked⟩
  by_cases htaken : 0 < copies c (r.state n).thread.operations
  · obtain ⟨error, hop⟩ := copies_pos_iff.mp htaken
    obtain ⟨m, hm, hop⟩ := invoked_of_taken hfair.thread hop
    exact ⟨m, hm, copies_pos_iff.mpr ⟨error, hop⟩⟩
  by_cases hadded : 0 < copies c (r.state n).operations
  · obtain ⟨error, hop⟩ := copies_pos_iff.mp hadded
    obtain ⟨m, hm, hop⟩ := invoked_of_added hfair hop
    exact ⟨m, hm, copies_pos_iff.mpr ⟨error, hop⟩⟩
  by_cases hstream : c ∈ (r.state n).streams
  · obtain ⟨k, hk, error, hop⟩ := added_of_streamed (hfair.cuda c) hstream
    obtain ⟨m, hm, hop⟩ := invoked_of_added hfair hop
    exact ⟨m, Nat.le_trans hk hm, copies_pos_iff.mpr ⟨error, hop⟩⟩
  have haccepted : c ∈ (r.state n).accepted := by
    have hzero : (r.state n).streams.count c = 0 := List.count_eq_zero.mpr hstream
    refine List.count_pos_iff.mp ?_
    simp only [onTheWay, served] at hplaced
    omega
  obtain ⟨m, hm, error, -, hop⟩ := invoked_of_accepted hfair haccepted
  exact ⟨m, hm, copies_pos_iff.mpr ⟨error, hop⟩⟩

/-- No callback is called twice. -/
theorem copies_invoked_le (h : Accounts x) (c : Nat) : copies c x.invoked ≤ 1 := by
  have hplaced := h.placed c
  simp only [served] at hplaced
  split at hplaced <;> omega

/-- Once invoked, a callback has been invoked once for good. -/
theorem invoked_for_good {c m : Nat} (h : 0 < copies c (r.state m).invoked) {k : Nat}
    (hk : m ≤ k) : copies c (r.state k).invoked = 1 := by
  have hstays := r.stays (p := fun x => 0 < copies c x.invoked) (fun s e s' hs hstep => by
    obtain ⟨error, hop⟩ := copies_pos_iff.mp hs
    exact copies_pos_iff.mpr ⟨error, invoked_moves (moves_of_step hstep) hop⟩) h hk
  have hle := copies_invoked_le (accounts_run r k) c
  omega

-- ── The end of the thread ────────────────────────────────────────────────────

/-- A closed loop in which only the first calls can be on their way. -/
structure Closing (bound : Nat) (x : CudaLoop) : Prop where
  accounts : Accounts x
  closed : x.closed = true
  first : ∀ c, 0 < x.onTheWay c → c < bound

/-- Each step of a loop that closes keeps it closing. -/
theorem closing_step {bound : Nat} {e : Event} (h : Closing bound x)
    (hstep : x.step e = some x') : Closing bound x' := by
  obtain ⟨haccounts, hclosed, hfirst⟩ := h
  refine ⟨accounts_step haccounts hstep, ?_, ?_⟩
  · cases moves_of_step hstep with
    | close _ => rfl
    | _ => exact hclosed
  · intro c hc
    refine hfirst c ?_
    cases moves_of_step hstep with
    | accept hopen => exact nomatch hopen.symm.trans hclosed
    | stream hmem =>
        have herase := count_erase_add (c := c) hmem
        simp only [onTheWay, List.count_append, List.count_cons, List.count_nil,
          beq_iff_eq] at hc ⊢
        omega
    | add error hmem _ =>
        have herase := count_erase_add (c := c) hmem
        simp only [onTheWay, copies_append, copies_cons, copies_nil] at hc ⊢
        omega
    | take _ =>
        simp only [onTheWay, takeOperations, copies_nil] at hc ⊢
        omega
    | _ => exact hc

/-- Nothing is on its way. -/
structure Drained (x : CudaLoop) : Prop where
  accounts : Accounts x
  closed : x.closed = true
  accepted : x.accepted = []
  streams : x.streams = []
  operations : x.operations = []

/-- A drained loop waits for nothing. -/
theorem Drained.pending (h : Drained x) : x.pendingOperations = 0 := by
  rw [h.accounts.pending, h.accepted, h.streams, h.operations]
  rfl

/-- A closing loop that has called all its callbacks is drained. -/
theorem drained_of_closing {bound : Nat} (h : Closing bound x)
    (hinvoked : ∀ c, c < bound → 0 < copies c x.invoked) : Drained x := by
  have hnone : ∀ c, x.onTheWay c = 0 := by
    intro c
    by_contra hpos
    have hmore := hinvoked c (h.first c (Nat.pos_of_ne_zero hpos))
    have hplaced := h.accounts.placed c
    simp only [served] at hplaced
    split at hplaced <;> omega
  refine ⟨h.accounts, h.closed, ?_, ?_, ?_⟩
  · refine List.eq_nil_iff_forall_not_mem.mpr ?_
    intro c hc
    have hpos := List.count_pos_iff.mpr hc
    have hzero := hnone c
    rw [onTheWay] at hzero
    omega
  · refine List.eq_nil_iff_forall_not_mem.mpr ?_
    intro c hc
    have hpos := List.count_pos_iff.mpr hc
    have hzero := hnone c
    rw [onTheWay] at hzero
    omega
  · refine List.eq_nil_iff_forall_not_mem.mpr ?_
    rintro ⟨c, error⟩ hop
    have hpos := copies_pos_iff.mpr ⟨error, hop⟩
    have hzero := hnone c
    rw [onTheWay] at hzero
    omega

/-- A thread with nothing left to do and nothing on its way exits. -/
theorem exited_of_drained (hfair : r.WeakFair (fun e => e = .processCallbacks))
    (h : Drained (r.state n)) : ∃ m, n ≤ m ∧ (r.state m).thread = .exited := by
  by_cases hout : (r.state n).thread = .exited
  · exact ⟨n, Nat.le_refl n, hout⟩
  refine hfair.leadsTo (p := fun x => Drained x ∧ x.thread ≠ .exited)
    (q := fun x => x.thread = .exited) (fun x => x.thread.left) ?_ ?_ ⟨h, hout⟩
  · rintro x ⟨hdrained, hout⟩
    refine ⟨_, rfl, processCallbacks_ne_none ?_ hout⟩
    intro hasleep
    exact (hdrained.accounts.asleep hasleep).2 hdrained.closed hdrained.pending
  · rintro x e x' ⟨hdrained, hout⟩ hstep
    have haccounts := accounts_step hdrained.accounts hstep
    have hpending := hdrained.pending
    obtain ⟨-, hclosed, haccepted, hstreams, hoperations⟩ := hdrained
    cases moves_of_step hstep with
    | refuse _ =>
        exact Or.inr ⟨⟨⟨haccounts, hclosed, haccepted, hstreams, hoperations⟩, hout⟩,
          Nat.le_refl _, nofun⟩
    | again _ =>
        exact Or.inr ⟨⟨⟨haccounts, hclosed, haccepted, hstreams, hoperations⟩, hout⟩,
          Nat.le_refl _, nofun⟩
    | accept hopen => exact nomatch hopen.symm.trans hclosed
    | close hopen => exact nomatch hopen.symm.trans hclosed
    | stream hmem => exact absurd (haccepted ▸ hmem) List.not_mem_nil
    | add _ hmem _ => exact absurd (hstreams ▸ hmem) List.not_mem_nil
    | exit _ _ _ _ => exact Or.inl rfl
    | sleep _ _ hwork => exact absurd hpending (hwork hclosed)
    | take hthread =>
        rcases hthread with ⟨-, hne⟩ | hthread
        · exact absurd hoperations hne
        · have hless : (Thread.invoking x.operations).left < x.thread.left := by
            rw [hthread, hoperations]
            exact Nat.lt_succ_self 1
          exact Or.inr ⟨⟨⟨haccounts, hclosed, haccepted, hstreams, rfl⟩, nofun⟩,
            Nat.le_of_lt hless, fun _ => hless⟩
    | again_top hthread =>
        have hless : Thread.top.left < x.thread.left := by rw [hthread]; exact Nat.one_pos
        exact Or.inr ⟨⟨⟨haccounts, hclosed, haccepted, hstreams, hoperations⟩, nofun⟩,
          Nat.le_of_lt hless, fun _ => hless⟩
    | @invoke op rest hthread =>
        have hless : (Thread.invoking rest).left < x.thread.left := by
          rw [hthread]
          exact Nat.lt_succ_self _
        exact Or.inr ⟨⟨⟨haccounts, hclosed, haccepted, hstreams, hoperations⟩, nofun⟩,
          Nat.le_of_lt hless, fun _ => hless⟩
    | wake hthread =>
        have hsame : (Thread.waiting true).left = x.thread.left := by rw [hthread]; rfl
        exact Or.inr ⟨⟨⟨haccounts, hclosed, haccepted, hstreams, hoperations⟩, nofun⟩,
          Nat.le_of_eq hsame, nofun⟩

/-- **A closed loop's thread exits**, so that a join returns. -/
theorem exited_of_closed (hfair : Fair r) (h : (r.state n).closed = true) :
    ∃ m, n ≤ m ∧ (r.state m).thread = .exited := by
  have hclosing : Closing (r.state n).calls (r.state n) := by
    refine ⟨accounts_run r n, h, ?_⟩
    intro c hc
    by_contra hlarge
    have hplaced := (accounts_run r n).placed c
    rw [if_neg hlarge] at hplaced
    omega
  obtain ⟨k, hk, hinvoked⟩ := r.all_reached (p := fun c x => 0 < copies c x.invoked) (n := n)
    (fun c s e s' hs hstep => by
      obtain ⟨error, hop⟩ := copies_pos_iff.mp hs
      exact copies_pos_iff.mpr ⟨error, invoked_moves (moves_of_step hstep) hop⟩)
    (r.state n).calls (fun c hc => invoked_of_lt hfair hc)
  have hlater := r.stays (p := Closing (r.state n).calls)
    (fun s e s' hs hstep => closing_step hs hstep) hclosing hk
  obtain ⟨m, hm, hout⟩ := exited_of_drained hfair.thread (drained_of_closing hlater hinvoked)
  exact ⟨m, Nat.le_trans hk hm, hout⟩

end Liveness

-- ── Every callback once ──────────────────────────────────────────────────────

/-- The accepted callbacks that the thread has not taken: those that were passed, and are
    neither with the thread nor invoked. -/
def untaken (x : CudaLoop) : List Nat :=
  (List.range x.calls).filter fun callback => x.served callback = 0

/-- The callbacks not yet taken are those on the way. -/
theorem mem_untaken_iff (h : Accounts x) {c : Nat} : c ∈ x.untaken ↔ 0 < x.onTheWay c := by
  have hplaced := h.placed c
  rw [untaken, List.mem_filter, List.mem_range, decide_eq_true_eq]
  constructor
  · rintro ⟨hlt, hserved⟩
    rw [if_pos hlt, hserved] at hplaced
    omega
  · intro hpos
    split at hplaced
    · next hlt => exact ⟨hlt, by omega⟩
    · omega

/-- `pendingOperations_` counts the accepted callbacks that have not been taken. -/
theorem pendingOperations_eq (h : Accounts x) : x.pendingOperations = x.untaken.length := by
  have hcount : ∀ c, (x.accepted ++ x.streams ++ x.operations.map (·.callback)).count c
      = x.onTheWay c := by
    intro c
    rw [List.count_append, List.count_append, List.count, List.countP_map]
    rfl
  have hnodup : (x.accepted ++ x.streams ++ x.operations.map (·.callback)).Nodup := by
    refine List.nodup_iff_count.mpr ?_
    intro c
    have hplaced := h.placed c
    rw [hcount]
    split at hplaced <;> omega
  have hperm : (x.accepted ++ x.streams ++ x.operations.map (·.callback)).Perm x.untaken := by
    refine (List.perm_ext_iff_of_nodup hnodup (List.nodup_range.filter _)).mpr ?_
    intro c
    rw [← List.count_pos_iff, hcount]
    exact (mem_untaken_iff h).symm
  rw [h.pending, ← hperm.length_eq, List.length_append, List.length_append, List.length_map]

/-- What holds in every state, whatever happens. -/
structure Serves (x : CudaLoop) : Prop where
  once : ∀ callback, copies callback x.invoked ≤ 1
  pending : x.pendingOperations = x.untaken.length
  no_underflow : x.operations.length ≤ x.pendingOperations
  exited : x.thread = .exited → x.closed = true ∧ x.untaken = [] ∧ x.operations = [] ∧
    ∀ callback, callback < x.calls → copies callback x.invoked = 1

/-- The account says that the callbacks are served. -/
theorem Accounts.serves (h : Accounts x) : Serves x where
  once := copies_invoked_le h
  pending := pendingOperations_eq h
  no_underflow := h.pending ▸ Nat.le_add_left _ _
  exited := by
    intro hout
    obtain ⟨hclosed, hzero⟩ := h.exited hout
    have hnone : x.untaken = [] := List.length_eq_zero_iff.mp (pendingOperations_eq h ▸ hzero)
    have hempty : x.operations = [] := by
      rw [h.pending] at hzero
      exact List.length_eq_zero_iff.mp (by omega)
    refine ⟨hclosed, hnone, hempty, ?_⟩
    intro c hc
    have hplaced := h.placed c
    have haway : ¬0 < x.onTheWay c := by
      intro hpos
      exact List.not_mem_nil (hnone ▸ (mem_untaken_iff h).mpr hpos)
    have hidle : copies c x.thread.operations = 0 := by rw [hout]; rfl
    rw [if_pos hc, served, hidle] at hplaced
    omega

/-- **Every callback is invoked exactly once**, at once and with an error if the loop was
    closed; the count of pending operations is right in every state; the thread exits only when
    nothing is left, and it does once the loop is closed. -/
theorem every_callback_once (r : Run step {}) (hfair : Fair r) :
    (∀ n, Serves (r.state n)) ∧
    (∀ n callback, callback < (r.state n).calls →
      ∃ m, n ≤ m ∧ ∀ k, m ≤ k → copies callback (r.state k).invoked = 1) ∧
    (∀ n, r.label n = some .addCallback →
      if (r.state n).closed then
        ⟨(r.state n).calls, .cudaLoopClosedError⟩ ∈ (r.state (n + 1)).invoked
      else
        ∃ m, n < m ∧ ∃ error, error ≠ .cudaLoopClosedError ∧
          ⟨(r.state n).calls, error⟩ ∈ (r.state m).invoked) ∧
    (∀ n, (r.state n).closed = true → ∃ m, n ≤ m ∧ (r.state m).thread = .exited) := by
  refine ⟨fun n => (accounts_run r n).serves, ?_, ?_, fun n => exited_of_closed hfair⟩
  · intro n c hc
    obtain ⟨m, hm, hinvoked⟩ := invoked_of_lt hfair hc
    exact ⟨m, hm, fun k hk => invoked_for_good hinvoked hk⟩
  · intro n hlabel
    have hnext : r.state (n + 1) = (r.state n).addCallback := by
      rcases r.next n with ⟨hnone, -⟩ | ⟨e, hsome, hstep⟩
      · exact nomatch hnone.symm.trans hlabel
      · obtain rfl := Option.some.inj (hsome.symm.trans hlabel)
        exact (Option.some.inj hstep).symm
    split
    · next hclosed =>
      rw [hnext, addCallback, if_pos hclosed]
      exact List.mem_append_right _ (List.mem_singleton_self _)
    · next hopen =>
      have haccepted : (r.state n).calls ∈ (r.state (n + 1)).accepted := by
        rw [hnext, addCallback, if_neg hopen]
        exact List.mem_append_right _ (List.mem_singleton_self _)
      obtain ⟨m, hm, hinvoked⟩ := invoked_of_accepted hfair haccepted
      exact ⟨m, hm, hinvoked⟩

/-- A callback that is served, a spurious wake-up, a close, and a callback that comes too
    late. -/
def sampleEvents : List Event :=
  [.addCallback, .processCallbacks, .wakeUp, .processCallbacks, .cudaStreamAddCallback 0,
    .processCallbacks, .processCallbacks, .runCudaCallback 0 none, .close, .processCallbacks,
    .addCallback, .processCallbacks, .processCallbacks, .processCallbacks]

/-- These events, and then nothing. -/
def sampleRun : Run step {} := Run.ofList sampleEvents (by decide)

/-- This run is fair. -/
theorem sampleRun_fair : Fair sampleRun where
  calls := fun c => Run.weakFair_ofList _ (by rintro l rfl; rfl)
  cuda := fun c => Run.weakFair_ofList _ (by rintro l ⟨e, rfl⟩; rfl)
  thread := Run.weakFair_ofList _ (by rintro l rfl; rfl)

theorem every_callback_once_of_two :
    ∃ m, ∀ k, m ≤ k → copies 0 (sampleRun.state k).invoked = 1 ∧
      copies 1 (sampleRun.state k).invoked = 1 := by
  obtain ⟨-, honce, -, -⟩ := every_callback_once sampleRun sampleRun_fair
  have hcalls : (sampleRun.state 14).calls = 2 := by decide
  obtain ⟨m, -, hzero⟩ := honce 14 0 (hcalls ▸ by decide)
  obtain ⟨m', -, hone⟩ := honce 14 1 (hcalls ▸ by decide)
  refine ⟨max m m', ?_⟩
  intro k hk
  exact ⟨hzero k (Nat.le_trans (Nat.le_max_left m m') hk),
    hone k (Nat.le_trans (Nat.le_max_right m m') hk)⟩

end CudaLoop

end TpCudaLoop
