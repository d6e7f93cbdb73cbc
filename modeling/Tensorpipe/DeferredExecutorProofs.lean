import Mathlib.Data.List.Range
import Mathlib.Tactic.Common
import Tensorpipe.HistoryProofs

/-! # Deferred executors — one task at a time, in order

    Tasks are named by the number of the critical section that accepted them, so the tasks
    accepted so far are `0`, `1`, … in order.  Critical sections are atomic; between them the
    threads interleave as they like.  A task that runs may defer others, and any thread may.

    An on-demand executor lends the role of the loop to the thread that finds it free.  Each
    thread has a stack of the calls to `deferToLoop` that became loops: such a call is AT THE
    TOP of its loop, about to look at the queue, or RUNNING a task. -/

namespace TpExecutor

open TpStateMachine

-- ── What happens to tasks ────────────────────────────────────────────────────

/-- What happens to a task, with the thread that runs it. -/
inductive Event where
  | accepted (n : Nat)
  | started (n thread : Nat)
  | finished (n thread : Nat)
deriving DecidableEq, Repr

/-- The task that an event accepts. -/
def Event.accepted? : Event → Option Nat
  | accepted n => some n
  | _ => none

/-- The task that an event starts. -/
def Event.started? : Event → Option Nat
  | started n _ => some n
  | _ => none

/-- The task that an event finishes. -/
def Event.finished? : Event → Option Nat
  | finished n _ => some n
  | _ => none

/-- The tasks accepted, started and finished, in order. -/
def accepts (log : List Event) : List Nat := log.filterMap Event.accepted?
def starts (log : List Event) : List Nat := log.filterMap Event.started?
def finishes (log : List Event) : List Nat := log.filterMap Event.finished?

/-- When a task starts, those that started before it are finished. -/
def Exclusive (log : List Event) : Prop :=
  Always (fun before e => ∀ n t, e = .started n t → finishes before = starts before) log

section Logs

variable {log : List Event} {n t : Nat}

/-- One more task is accepted. -/
theorem accepts_accepted : accepts (log ++ [.accepted n]) = accepts log ++ [n] :=
  List.filterMap_append ..

/-- Other events accept none. -/
theorem accepts_other {e : Event} (he : e.accepted? = none) : accepts (log ++ [e]) = accepts log := by
  rw [accepts, List.filterMap_append, List.filterMap_cons_none he]
  exact List.append_nil _

/-- One more task is started. -/
theorem starts_started : starts (log ++ [.started n t]) = starts log ++ [n] :=
  List.filterMap_append ..

/-- Other events start none. -/
theorem starts_other {e : Event} (he : e.started? = none) : starts (log ++ [e]) = starts log := by
  rw [starts, List.filterMap_append, List.filterMap_cons_none he]
  exact List.append_nil _

/-- One more task is finished. -/
theorem finishes_finished : finishes (log ++ [.finished n t]) = finishes log ++ [n] :=
  List.filterMap_append ..

/-- Other events finish none. -/
theorem finishes_other {e : Event} (he : e.finished? = none) :
    finishes (log ++ [e]) = finishes log := by
  rw [finishes, List.filterMap_append, List.filterMap_cons_none he]
  exact List.append_nil _

/-- A task may start when all others are finished. -/
theorem exclusive_started (h : Exclusive log) (hidle : finishes log = starts log) :
    Exclusive (log ++ [.started n t]) :=
  always_snoc.mpr ⟨h, fun _ _ _ => hidle⟩

/-- Other events start nothing beside another. -/
theorem exclusive_other {e : Event} (h : Exclusive log) (he : e.started? = none) :
    Exclusive (log ++ [e]) := by
  refine always_snoc.mpr ⟨h, ?_⟩
  rintro n t rfl
  exact nomatch he

end Logs

-- ── The on-demand executor ───────────────────────────────────────────────────

/-- Where a call to `deferToLoop` that became a loop is. -/
inductive Frame where
  | atTop
  | running (n : Nat)
deriving DecidableEq, Repr

/-- `next` is the number of the next task that will be accepted. -/
structure OnDemandDeferredExecutor where
  currentLoop : Option Nat := none
  pendingTasks : List Nat := []
  stack : Nat → List Frame := fun _ => []
  next : Nat := 0
  log : List Event := []

/-- The stacks with another one for a thread. -/
def setStack (stack : Nat → List Frame) (t : Nat) (frames : List Frame) : Nat → List Frame :=
  fun t' => if t' = t then frames else stack t'

/-- The stack that was set. -/
theorem setStack_self (stack : Nat → List Frame) (t : Nat) (frames : List Frame) :
    setStack stack t frames t = frames :=
  if_pos rfl

/-- The other stacks are as they were. -/
theorem setStack_of_ne (stack : Nat → List Frame) {t t' : Nat} (frames : List Frame) (h : t' ≠ t) :
    setStack stack t frames t' = stack t' :=
  if_neg h

namespace OnDemandDeferredExecutor

/-- The first critical section of `deferToLoop`. -/
def deferToLoop (t : Nat) (x : OnDemandDeferredExecutor) : OnDemandDeferredExecutor :=
  let y :=
    { x with
      next := x.next + 1
      pendingTasks := x.pendingTasks ++ [x.next]
      log := x.log ++ [.accepted x.next] }
  match x.currentLoop with
  | some _ => y
  | none => { y with currentLoop := some t, stack := setStack x.stack t (.atTop :: x.stack t) }

/-- A step of the innermost loop of a thread: the critical section that takes a task or gives
    up the role, or the end of a task. -/
def advance (t : Nat) (x : OnDemandDeferredExecutor) : OnDemandDeferredExecutor :=
  match x.stack t with
  | [] => x
  | .atTop :: rest =>
      match x.pendingTasks with
      | [] => { x with currentLoop := none, stack := setStack x.stack t rest }
      | n :: tail =>
          { x with
            pendingTasks := tail
            stack := setStack x.stack t (.running n :: rest)
            log := x.log ++ [.started n t] }
  | .running n :: rest =>
      { x with
        stack := setStack x.stack t (.atTop :: rest)
        log := x.log ++ [.finished n t] }

/-- A thread defers a task, or goes on with what it runs. -/
inductive Step where
  | deferToLoop (t : Nat)
  | advance (t : Nat)
deriving DecidableEq, Repr

/-- A thread calls `deferToLoop` from outside or from a task that it runs. -/
def canDefer (x : OnDemandDeferredExecutor) (t : Nat) : Prop :=
  x.stack t = [] ∨ ∃ n rest, x.stack t = .running n :: rest

/-- When a step can be taken. -/
def enabled (x : OnDemandDeferredExecutor) : Step → Prop
  | .deferToLoop t => x.canDefer t
  | .advance t => x.stack t ≠ []

/-- One step of the executor. -/
def step (x : OnDemandDeferredExecutor) : Step → OnDemandDeferredExecutor
  | .deferToLoop t => x.deferToLoop t
  | .advance t => x.advance t

/-- The executors that can be reached from a new one. -/
inductive Reachable : OnDemandDeferredExecutor → Prop where
  | init : Reachable {}
  | step {x : OnDemandDeferredExecutor} (h : Reachable x) (s : Step) (henabled : x.enabled s) :
      Reachable (x.step s)

-- ── Who has the role of the loop ─────────────────────────────────────────────

/-- The role, the stacks and the log agree. -/
inductive Role (x : OnDemandDeferredExecutor) : Prop where
  | free (hloop : x.currentLoop = none) (hstack : ∀ t, x.stack t = [])
      (hpending : x.pendingTasks = []) (hidle : finishes x.log = starts x.log)
  | between (t : Nat) (hloop : x.currentLoop = some t) (hself : x.stack t = [.atTop])
      (hstack : ∀ t', t' ≠ t → x.stack t' = []) (hidle : finishes x.log = starts x.log)
  | busy (t n : Nat) (hloop : x.currentLoop = some t) (hself : x.stack t = [.running n])
      (hstack : ∀ t', t' ≠ t → x.stack t' = []) (hbusy : starts x.log = finishes x.log ++ [n])

/-- Tasks start in the order in which they were accepted, one at a time, in one thread. -/
structure LoopInv (x : OnDemandDeferredExecutor) : Prop where
  accepted : accepts x.log = List.range x.next
  order : starts x.log ++ x.pendingTasks = List.range x.next
  exclusive : Exclusive x.log
  role : Role x

section Role

variable {x : OnDemandDeferredExecutor} {t : Nat}

/-- Deferring a task keeps the invariant. -/
theorem loopInv_deferToLoop (h : LoopInv x) (t : Nat) : LoopInv (x.deferToLoop t) := by
  have haccepted : accepts (x.log ++ [.accepted x.next]) = List.range (x.next + 1) := by
    rw [accepts_accepted, h.accepted, List.range_succ]
  have hstarts : starts (x.log ++ [.accepted x.next]) = starts x.log := starts_other rfl
  have hfinishes : finishes (x.log ++ [.accepted x.next]) = finishes x.log := finishes_other rfl
  have horder : starts (x.log ++ [.accepted x.next]) ++ (x.pendingTasks ++ [x.next])
      = List.range (x.next + 1) := by
    rw [hstarts, ← List.append_assoc, h.order, List.range_succ]
  have hexclusive : Exclusive (x.log ++ [.accepted x.next]) := exclusive_other h.exclusive rfl
  rw [deferToLoop]
  cases h.role with
  | free hloop hstack hpending hidle =>
      rw [hloop]
      refine ⟨haccepted, horder, hexclusive, .between t rfl ?_ (fun t' hne => ?_) ?_⟩
      · show setStack x.stack t _ t = _
        rw [setStack_self, hstack]
      · show setStack x.stack t _ t' = _
        rw [setStack_of_ne _ _ hne]
        exact hstack t'
      · rw [hfinishes, hstarts]
        exact hidle
  | between t' hloop hself hstack hidle =>
      rw [hloop]
      refine ⟨haccepted, horder, hexclusive, .between t' rfl hself hstack ?_⟩
      rw [hfinishes, hstarts]
      exact hidle
  | busy t' n hloop hself hstack hbusy =>
      rw [hloop]
      refine ⟨haccepted, horder, hexclusive, .busy t' n rfl hself hstack ?_⟩
      rw [hfinishes, hstarts]
      exact hbusy

/-- A thread that goes on keeps the invariant. -/
theorem loopInv_advance (h : LoopInv x) (t : Nat) : LoopInv (x.advance t) := by
  by_cases hstay : x.stack t = []
  · rw [advance, hstay]
    exact h
  cases h.role with
  | free hloop hstack hpending hidle => exact absurd (hstack t) hstay
  | between t' hloop hself hstack hidle =>
      obtain rfl : t = t' := by
        by_contra hne
        exact hstay (hstack t hne)
      rw [advance, hself]
      cases hpending : x.pendingTasks with
      | nil =>
          have horder := h.order
          rw [hpending] at horder
          refine ⟨h.accepted, horder, h.exclusive, .free rfl (fun t' => ?_) rfl hidle⟩
          show setStack x.stack t [] t' = []
          by_cases hne : t' = t
          · rw [hne, setStack_self]
          · rw [setStack_of_ne _ _ hne]
            exact hstack t' hne
      | cons n tail =>
          have horder := h.order
          rw [hpending] at horder
          refine ⟨?_, ?_, exclusive_started h.exclusive hidle,
            .busy t n hloop (setStack_self ..) (fun t' hne => ?_) ?_⟩
          · rw [accepts_other rfl]
            exact h.accepted
          · rw [starts_started, List.append_assoc]
            exact horder
          · show setStack x.stack t _ t' = _
            rw [setStack_of_ne _ _ hne]
            exact hstack t' hne
          · rw [starts_started, finishes_other rfl, hidle]
  | busy t' n hloop hself hstack hbusy =>
      obtain rfl : t = t' := by
        by_contra hne
        exact hstay (hstack t hne)
      rw [advance, hself]
      refine ⟨?_, ?_, exclusive_other h.exclusive rfl,
        .between t hloop (setStack_self ..) (fun t' hne => ?_) ?_⟩
      · rw [accepts_other rfl]
        exact h.accepted
      · rw [starts_other rfl]
        exact h.order
      · show setStack x.stack t _ t' = _
        rw [setStack_of_ne _ _ hne]
        exact hstack t' hne
      · rw [finishes_finished, starts_other rfl]
        exact hbusy.symm

/-- **Step lemma.** -/
theorem loopInv_step (h : LoopInv x) (s : Step) : LoopInv (x.step s) := by
  cases s with
  | deferToLoop t => exact loopInv_deferToLoop h t
  | advance t => exact loopInv_advance h t

/-- **Run lemma.** -/
theorem loopInv_reachable (h : Reachable x) : LoopInv x := by
  induction h with
  | init => exact ⟨rfl, rfl, always_nil, .free rfl (fun _ => rfl) rfl rfl⟩
  | step _ s _ ih => exact loopInv_step ih s

/-- The thread of the loop takes the next task. -/
theorem advance_take {n : Nat} {tail : List Nat} {rest : List Frame}
    (hself : x.stack t = .atTop :: rest) (hpending : x.pendingTasks = n :: tail) :
    x.advance t = { x with
      pendingTasks := tail
      stack := setStack x.stack t (.running n :: rest)
      log := x.log ++ [.started n t] } := by
  rw [advance, hself, hpending]

/-- The thread of the loop finishes its task. -/
theorem advance_finish {n : Nat} {rest : List Frame} (hself : x.stack t = .running n :: rest) :
    x.advance t = { x with
      stack := setStack x.stack t (.atTop :: rest)
      log := x.log ++ [.finished n t] } := by
  rw [advance, hself]

/-- Going on accepts no task. -/
theorem advance_next (x : OnDemandDeferredExecutor) (t : Nat) : (x.advance t).next = x.next := by
  rw [advance]
  split
  · rfl
  · split <;> rfl
  · rfl

/-- What the thread of the loop still has to do. -/
def remaining (x : OnDemandDeferredExecutor) (t : Nat) : Nat :=
  2 * x.pendingTasks.length + if x.stack t = [.atTop] then 0 else 1

/-- What the thread has to do is bounded by the tasks that wait. -/
theorem remaining_le (x : OnDemandDeferredExecutor) (t : Nat) :
    x.remaining t ≤ 2 * x.pendingTasks.length + 1 := by
  rw [remaining]
  split <;> omega

/-- **Drain lemma.**  Left to itself, the thread of the loop runs every pending task and gives
    up the role. -/
theorem loop_drains :
    ∀ (m : Nat) (x : OnDemandDeferredExecutor), LoopInv x → x.currentLoop = some t →
      x.remaining t ≤ m →
      ∃ k, LoopInv ((advance t)^[k] x) ∧ ((advance t)^[k] x).currentLoop = none
        ∧ ((advance t)^[k] x).next = x.next := by
  intro m
  induction m with
  | zero =>
      intro x h hloop hm
      -- nothing is left but to give up the role
      refine ⟨1, loopInv_advance h t, ?_, advance_next x t⟩
      cases h.role with
      | free hfree _ _ _ => exact nomatch hfree.symm.trans hloop
      | busy t' n hloop' hself _ _ =>
          obtain rfl := Option.some.inj (hloop'.symm.trans hloop)
          rw [remaining, hself] at hm
          exact nomatch hm
      | between t' hloop' hself _ _ =>
          obtain rfl := Option.some.inj (hloop'.symm.trans hloop)
          have hempty : x.pendingTasks = [] := by
            rw [remaining] at hm
            exact List.length_eq_zero_iff.mp (by omega)
          show (x.advance t').currentLoop = none
          rw [advance, hself, hempty]
  | succ m ih =>
      intro x h hloop hm
      have hnext := loopInv_advance h t
      by_cases hfree : (x.advance t).currentLoop = none
      · exact ⟨1, hnext, hfree, advance_next x t⟩
      · have hstep : (x.advance t).currentLoop = some t ∧ (x.advance t).remaining t ≤ m := by
          cases h.role with
          | free hfree' _ _ _ => exact nomatch hfree'.symm.trans hloop
          | between t' hloop' hself _ _ =>
              obtain rfl := Option.some.inj (hloop'.symm.trans hloop)
              rw [remaining, if_pos hself] at hm
              cases hpending : x.pendingTasks with
              | nil =>
                  rw [advance, hself, hpending] at hfree
                  exact absurd rfl hfree
              | cons n tail =>
                  rw [hpending, List.length_cons] at hm
                  have hle := (x.advance t').remaining_le t'
                  rw [advance_take hself hpending] at hle ⊢
                  exact ⟨hloop, Nat.le_trans hle (by show 2 * tail.length + 1 ≤ m; omega)⟩
          | busy t' n hloop' hself _ _ =>
              obtain rfl := Option.some.inj (hloop'.symm.trans hloop)
              rw [remaining, hself] at hm
              rw [advance_finish hself]
              refine ⟨hloop, ?_⟩
              rw [remaining, if_pos (setStack_self ..)]
              exact Nat.le_of_succ_le_succ hm
        obtain ⟨k, hinv, hrole, hsame⟩ := ih (x.advance t) hnext hstep.1 hstep.2
        exact ⟨k + 1, hinv, hrole, hsame.trans (advance_next x t)⟩

/-- What the executor promises. -/
structure OneAtATime (x : OnDemandDeferredExecutor) : Prop where
  /-- Tasks start in the order in which they were appended. -/
  order : starts x.log ++ x.pendingTasks = accepts x.log
  /-- No task starts twice. -/
  once : (starts x.log).Nodup
  /-- A task starts when those before it are finished. -/
  exclusive : Exclusive x.log
  /-- While nobody has the role, the queue is empty and no task is running. -/
  free : x.currentLoop = none → x.pendingTasks = [] ∧ (∀ t n, .running n ∉ x.stack t)
    ∧ finishes x.log = accepts x.log
  /-- Whoever has the role runs what is pending, if only it goes on. -/
  drained : ∀ t, x.currentLoop = some t → ∃ k, ((advance t)^[k] x).currentLoop = none
    ∧ finishes ((advance t)^[k] x).log = accepts x.log

/-- **One task at a time.**  In every state of every run, whichever threads defer and when. -/
theorem one_at_a_time (h : Reachable x) : OneAtATime x := by
  have hinv := loopInv_reachable h
  have hfree : ∀ {y : OnDemandDeferredExecutor}, LoopInv y → y.currentLoop = none →
      y.pendingTasks = [] ∧ (∀ t n, .running n ∉ y.stack t) ∧ finishes y.log = accepts y.log := by
    intro y hy hnone
    cases hy.role with
    | free _ hstack hpending hidle =>
        refine ⟨hpending, fun t n hmem => ?_, ?_⟩
        · rw [hstack t] at hmem
          exact nomatch hmem
        · have horder := hy.order
          rw [hpending, List.append_nil] at horder
          rw [hidle, horder, hy.accepted]
    | between t hloop _ _ _ => exact nomatch hnone.symm.trans hloop
    | busy t n hloop _ _ _ => exact nomatch hnone.symm.trans hloop
  refine ⟨hinv.order.trans hinv.accepted.symm, ?_, hinv.exclusive, hfree hinv, fun t hloop => ?_⟩
  · have hnodup : (starts x.log ++ x.pendingTasks).Nodup := by
      rw [hinv.order]
      exact List.nodup_range
    exact (List.nodup_append.mp hnodup).1
  · obtain ⟨k, hk, hnone, hnext⟩ := loop_drains _ x hinv hloop (Nat.le_refl _)
    refine ⟨k, hnone, ?_⟩
    rw [(hfree hk hnone).2.2, hk.accepted, hnext, hinv.accepted]

/-- A second thread appends while the first one runs its task. -/
theorem one_at_a_time_two : ∃ x, Reachable x ∧ OneAtATime x ∧ x.pendingTasks = [1]
    ∧ x.currentLoop = some 7 := by
  have hrun : Reachable _ := .step (.step (.step .init (.deferToLoop 7) (Or.inl rfl)) (.advance 7)
    (List.cons_ne_nil _ _)) (.deferToLoop 8) (Or.inl rfl)
  exact ⟨_, hrun, one_at_a_time hrun, rfl, rfl⟩

end Role

end OnDemandDeferredExecutor

end TpExecutor
