import Mathlib.Data.List.Count
import Mathlib.Data.List.Nodup
import Mathlib.Tactic.Common
import Tensorpipe.StateMachineProofs

/-! # One side of a subject — a queue and its outstanding calls

    The operations of a queue issue lower-level calls.  A call that CAPTURES an operation
    keeps a pointer to it and writes through that pointer when it reports; a call that
    captures none only reports.  An operation invokes its callback when it finishes, and
    leaves the queue when it is at the front.

    This file names no subject.  It has

    * `Io` and `Side`: the outstanding calls, the callbacks invoked, the queue, and the
      ways a task acts on them (`submit`, `refuse`, `report`, `forget`, `advanceAll`);
    * `SideInv`: every call that captured an operation finds it in the queue, each
      operation has exactly the calls outstanding that it waits for, and each number has
      been called back exactly once iff it is finished or gone;
    * `Sound`: what each transition owes for that, a finite check;
    * `Rested`: a side between two tasks, and the rule for each way of acting on it. -/

namespace TpStateMachine

-- ── Calls and callbacks ──────────────────────────────────────────────────────

/-- The outside of a queue: the calls that have not reported, all the calls ever issued,
    and the callbacks invoked, each with the number of its operation and whether it was
    given an error. -/
structure Io (Call : Type) where
  calls : List Call := []
  issued : List Call := []
  callbacks : List (Nat × Bool) := []
deriving DecidableEq, Repr

namespace Io

variable {Call : Type}

/-- Hands a call to another component. -/
def issue (io : Io Call) (c : Call) : Io Call :=
  { io with calls := io.calls ++ [c], issued := io.issued ++ [c] }

/-- Calls the user back. -/
def callback (io : Io Call) (n : Nat) (error : Bool) : Io Call :=
  { io with callbacks := io.callbacks ++ [(n, error)] }

/-- A call reports: it is outstanding no more. -/
def reported [DecidableEq Call] (io : Io Call) (c : Call) : Io Call :=
  { io with calls := io.calls.erase c }

end Io

/-- A queue with its outside.  `next` is the number of the next operation. -/
structure Side (Op Call : Type) where
  next : Nat := 0
  ops : List Op := []
  io : Io Call := {}
deriving DecidableEq, Repr

variable {Op State Call : Type} [Operation Op State] [DecidableEq State]

namespace Side

/-- Advances the operations from a given one on. -/
def advance (ts : List (Transition (Io Call) Op State)) (x : Side Op Call) (n : Nat) :
    Side Op Call :=
  let y := (advanceOperation ts x.io x.ops n).state
  { x with io := y.1, ops := y.2 }

/-- Advances the operations from the first one on. -/
def advanceAll (ts : List (Transition (Io Call) Op State)) (x : Side Op Call) :
    Side Op Call :=
  let y := (advanceAllOperations ts x.io x.ops).state
  { x with io := y.1, ops := y.2 }

/-- Store a new operation at the back and advance it. -/
def submit (ts : List (Transition (Io Call) Op State)) (x : Side Op Call) (op : Op) :
    Side Op Call :=
  advance ts { x with next := x.next + 1, ops := x.ops ++ [op] } x.next

/-- Answer with an error, without storing anything; the number is used up. -/
def refuse (x : Side Op Call) : Side Op Call :=
  { x with next := x.next + 1, io := x.io.callback x.next true }

variable [DecidableEq Call]

/-- A call reports: write through the pointer it captured, and advance. -/
def report (ts : List (Transition (Io Call) Op State)) (x : Side Op Call) (c : Call) (n : Nat)
    (f : Op → Op) : Side Op Call :=
  advance ts { x with io := x.io.reported c, ops := modifyOperation n f x.ops } n

/-- A call reports that captured nothing. -/
def forget (x : Side Op Call) (c : Call) : Side Op Call :=
  { x with io := x.io.reported c }

end Side

-- ── Walks, by steps ──────────────────────────────────────────────────────────

section Walks

variable {σ : Type}

/-- What every step of a walk keeps, the walk keeps. -/
theorem advanceOperation_induct {ts : List (Transition σ Op State)}
    {P : σ → List Op → Prop} (hnum : ∀ s ops, P s ops → ∃ next, Numbered next ops)
    (hone : ∀ s pre op post y, P s (pre ++ op :: post) →
      advanceOneOperation ts s (pre ++ op :: post) pre.length op = .returns y → P y.1 y.2.1)
    {s : σ} {ops : List Op} {n : Nat} {y : σ × List Op} (hP : P s ops)
    (hy : advanceOperation ts s ops n = .returns y) : P y.1 y.2 := by
  have hloop : ∀ (fuel : Nat) (s : σ) (ops : List Op) (n : Nat), P s ops →
      ∀ y, advanceOperationLoop ts fuel s ops n = .returns y → P y.1 y.2 := by
    intro fuel
    induction fuel with
    | zero =>
        intro s ops n hP y hy
        obtain rfl := Outcome.returns.inj hy
        exact hP
    | succ fuel ih =>
        intro s ops n hP y hy
        rw [advanceOperationLoop] at hy
        cases hfind : findOperation ops n with
        | none =>
            rw [hfind] at hy
            obtain rfl := Outcome.returns.inj hy
            exact hP
        | some i =>
            obtain ⟨next, hnumbered⟩ := hnum _ _ hP
            obtain ⟨pre, op, post, rfl, rfl, -⟩ := exists_of_findOperation hnumbered hfind
            rw [hfind] at hy
            simp only [getElem?_mid] at hy
            by_cases hfin : Operation.state op = finished Op
            · rw [if_pos hfin] at hy
              obtain rfl := Outcome.returns.inj hy
              exact hP
            · rw [if_neg hfin] at hy
              cases hadv : advanceOneOperation ts s (pre ++ op :: post) pre.length op with
              | throws z => rw [hadv] at hy; exact absurd hy (by simp)
              | returns z =>
                  rw [hadv] at hy
                  have hz := hone _ _ _ _ _ hP hadv
                  dsimp only at hy
                  by_cases hflag : z.2.2 = true
                  · rw [if_pos hflag] at hy
                    exact ih _ _ _ hz y hy
                  · rw [if_neg hflag] at hy
                    obtain rfl := Outcome.returns.inj hy
                    exact hz
  exact hloop _ s ops n hP y hy

theorem advanceAllOperationsLoop_induct {ts : List (Transition σ Op State)}
    {P : σ → List Op → Prop} (hnum : ∀ s ops, P s ops → ∃ next, Numbered next ops)
    (hone : ∀ s pre op post y, P s (pre ++ op :: post) →
      advanceOneOperation ts s (pre ++ op :: post) pre.length op = .returns y → P y.1 y.2.1) :
    ∀ (fuel : Nat) (s : σ) (ops : List Op) (n : Nat), P s ops →
      ∀ y, advanceAllOperationsLoop ts fuel s ops n = .returns y → P y.1 y.2 := by
  intro fuel
  induction fuel with
  | zero =>
      intro s ops n hP y hy
      obtain rfl := Outcome.returns.inj hy
      exact hP
  | succ fuel ih =>
      intro s ops n hP y hy
      rw [advanceAllOperationsLoop] at hy
      cases hfind : findOperation ops n with
      | none =>
          rw [hfind] at hy
          obtain rfl := Outcome.returns.inj hy
          exact hP
      | some i =>
          obtain ⟨next, hnumbered⟩ := hnum _ _ hP
          obtain ⟨pre, op, post, rfl, rfl, -⟩ := exists_of_findOperation hnumbered hfind
          rw [hfind] at hy
          simp only [getElem?_mid] at hy
          cases hadv : advanceOneOperation ts s (pre ++ op :: post) pre.length op with
          | throws z => rw [hadv] at hy; exact absurd hy (by simp)
          | returns z =>
              rw [hadv] at hy
              exact ih _ _ _ (hone _ _ _ _ _ hP hadv) y hy

theorem advanceAllOperations_induct {ts : List (Transition σ Op State)}
    {P : σ → List Op → Prop} (hnum : ∀ s ops, P s ops → ∃ next, Numbered next ops)
    (hone : ∀ s pre op post y, P s (pre ++ op :: post) →
      advanceOneOperation ts s (pre ++ op :: post) pre.length op = .returns y → P y.1 y.2.1)
    {s : σ} {ops : List Op} {y : σ × List Op} (hP : P s ops)
    (hy : advanceAllOperations ts s ops = .returns y) : P y.1 y.2 := by
  cases ops with
  | nil =>
      obtain rfl := Outcome.returns.inj hy
      exact hP
  | cons front rest => exact advanceAllOperationsLoop_induct hnum hone _ s _ _ hP y hy

/-- The front of the queue is not finished. -/
def FrontOpen (ops : List Op) : Prop :=
  ∀ op rest, ops = op :: rest → Operation.state op ≠ finished Op

theorem advanceOneOperation_frontOpen {ts : List (Transition σ Op State)} {s : σ}
    {pre post : List Op} {op : Op} {y : σ × List Op × Bool}
    (hopen : FrontOpen (pre ++ op :: post))
    (hadv : advanceOneOperation ts s (pre ++ op :: post) pre.length op = .returns y) :
    FrontOpen y.2.1 := by
  rw [advanceOneOperation] at hadv
  cases htr : transition ts (prevOpState (pre ++ op :: post) op) (s, op) with
  | throws z => rw [htr] at hadv; exact absurd hadv (by simp)
  | returns z =>
      rw [htr] at hadv
      dsimp only at hadv
      by_cases hfin : Operation.state z.2 = finished Op
      · rw [if_pos hfin] at hadv
        obtain rfl := Outcome.returns.inj hadv
        intro front rest hfront
        exact popFinished_front hfront
      · rw [if_neg hfin] at hadv
        obtain rfl := Outcome.returns.inj hadv
        intro front rest hfront
        have hset : (pre ++ op :: post).set pre.length z.2 = pre ++ z.2 :: post := by simp
        rw [show (_, (pre ++ op :: post).set pre.length z.2, _).2.1 = _ from rfl, hset] at hfront
        cases pre with
        | nil =>
            obtain ⟨rfl, -⟩ := List.cons.inj hfront
            exact hfin
        | cons hd tl =>
            obtain ⟨rfl, -⟩ := List.cons.inj hfront
            exact hopen hd _ rfl

end Walks

-- ── Captured operations ──────────────────────────────────────────────────────

/-- Which operation a call captured, how many calls an operation waits for, which calls
    those can be, and what holds of every stored operation on its own. -/
structure Capture (Op Call : Type) where
  captures : Call → Option Nat
  pending : Op → Nat
  Fits : Op → Call → Prop
  Wf : Op → Prop

/-- The calls outstanding for the operation of a number. -/
def Capture.outstanding (K : Capture Op Call) (io : Io Call) (n : Nat) : Nat :=
  io.calls.countP (fun c => K.captures c == some n)

/-- The invariant of a side.  The stored operations end just below `bound`; the numbers
    from there to `next` were refused. -/
structure SideInv (K : Capture Op Call) (bound next : Nat) (io : Io Call) (ops : List Op) :
    Prop where
  numbered : Numbered bound ops
  bounded : bound ≤ next
  wf : ∀ op ∈ ops, K.Wf op
  counted : ∀ op ∈ ops, K.outstanding io (sequenceNumber op) = K.pending op
  stored : ∀ c ∈ io.calls, ∀ n, K.captures c = some n →
    ∃ op ∈ ops, sequenceNumber op = n ∧ K.Fits op c
  once : (io.callbacks.map Prod.fst).Nodup
  answered : ∀ n, n ∈ io.callbacks.map Prod.fst ↔
    n < next ∧ ∀ op ∈ ops, sequenceNumber op = n → Operation.state op = finished Op

/-- What firing a transition does: it issues some calls, all for this operation, which
    then waits for that many more, and it invokes the callback if it finishes. -/
structure Fired (K : Capture Op Call) (t : Transition (Io Call) Op State) (io : Io Call)
    (op : Op) (y : Io Call × Op) : Prop where
  number : sequenceNumber y.2 = sequenceNumber op
  wf : K.Wf (withState y.2 t.target)
  calls : ∃ new, y.1.calls = io.calls ++ new
    ∧ (∀ c ∈ new, ∀ n, K.captures c = some n →
        n = sequenceNumber op ∧ K.Fits (withState y.2 t.target) c)
    ∧ K.pending (withState y.2 t.target)
      = K.pending op + new.countP (fun c => K.captures c == some (sequenceNumber op))
  fits : ∀ c, K.Fits op c → K.Fits (withState y.2 t.target) c
  callbacks : ∃ e, y.1.callbacks
    = io.callbacks ++ if t.target = finished Op then [(sequenceNumber op, e)] else []

/-- The attempts of an operation issue what its states wait for, and nothing else. -/
structure Sound (K : Capture Op Call) (ts : List (Transition (Io Call) Op State)) : Prop where
  idle : ∀ op : Op, Operation.state op = finished Op → K.pending op = 0
  notFinished : ∀ t ∈ ts, t.source ≠ finished Op
  fire : ∀ t ∈ ts, ∀ io op prev, K.Wf op → Operation.state op = t.source →
    t.cond op prev = true →
    (runActions t.actions (io, op)).Post (Fired K t io op) (fun _ => False)

omit [DecidableEq State] in
/-- An operation that waits for nothing has no call outstanding. -/
theorem SideInv.no_call {K : Capture Op Call} {bound next : Nat} {io : Io Call} {ops : List Op}
    (h : SideInv K bound next io ops) {op : Op} (hop : op ∈ ops) (hidle : K.pending op = 0)
    {c : Call} (hc : c ∈ io.calls) : K.captures c ≠ some (sequenceNumber op) := by
  intro hcap
  have hcount := h.counted op hop
  rw [hidle, Capture.outstanding, List.countP_eq_zero] at hcount
  exact hcount c hc (by rw [hcap]; exact beq_self_eq_true _)

/-- A firing transition keeps the invariant. -/
theorem sideInv_fire {K : Capture Op Call} {bound next : Nat} {io : Io Call}
    {pre post : List Op} {op : Op} {t : Transition (Io Call) Op State} {y : Io Call × Op}
    (hsource : Operation.state op ≠ finished Op) (h : SideInv K bound next io (pre ++ op :: post))
    (hy : Fired K t io op y) :
    SideInv K bound next y.1 (pre ++ withState y.2 t.target :: post) := by
  obtain ⟨new, hcalls, hnew, hpending⟩ := hy.calls
  obtain ⟨e, hcallbacks⟩ := hy.callbacks
  have hseq : sequenceNumber (withState y.2 t.target) = sequenceNumber op := by
    rw [Operation.sequenceNumber_withState, hy.number]
  have hmem : ∀ o, o ∈ pre ++ withState y.2 t.target :: post →
      o = withState y.2 t.target ∨ (o ∈ pre ++ op :: post ∧ sequenceNumber o ≠ sequenceNumber op) := by
    intro o ho
    rcases List.mem_append.mp ho with hpre | hmid
    · exact Or.inr ⟨List.mem_append_left _ hpre, numbered_ne h.numbered (Or.inl hpre)⟩
    · rcases List.mem_cons.mp hmid with rfl | hpost
      · exact Or.inl rfl
      · exact Or.inr ⟨List.mem_append_right _ (List.mem_cons_of_mem _ hpost),
          numbered_ne h.numbered (Or.inr hpost)⟩
  have hopmem : op ∈ pre ++ op :: post := List.mem_append_right _ (List.mem_cons_self ..)
  have hopmem' : withState y.2 t.target ∈ pre ++ withState y.2 t.target :: post :=
    List.mem_append_right _ (List.mem_cons_self ..)
  refine ⟨numbered_set h.numbered hseq, h.bounded, ?_, ?_, ?_, ?_, ?_⟩
  · intro o ho
    rcases hmem o ho with rfl | ⟨hold, -⟩
    · exact hy.wf
    · exact h.wf o hold
  · intro o ho
    rw [Capture.outstanding, hcalls, List.countP_append]
    rcases hmem o ho with rfl | ⟨hold, hne⟩
    · rw [hseq, hpending, ← h.counted op hopmem]
      rfl
    · have hzero : new.countP (fun c => K.captures c == some (sequenceNumber o)) = 0 := by
        refine List.countP_eq_zero.mpr (fun c hc hcap => hne ?_)
        exact (hnew c hc _ (beq_iff_eq.mp hcap)).1
      rw [hzero]
      exact h.counted o hold
  · intro c hc n hcap
    rw [hcalls] at hc
    rcases List.mem_append.mp hc with hold | hc'
    · obtain ⟨o, ho, rfl, hfits⟩ := h.stored c hold n hcap
      rcases List.mem_append.mp ho with hpre | hmid
      · exact ⟨o, List.mem_append_left _ hpre, rfl, hfits⟩
      · rcases List.mem_cons.mp hmid with rfl | hpost
        · exact ⟨_, hopmem', hseq, hy.fits c hfits⟩
        · exact ⟨o, List.mem_append_right _ (List.mem_cons_of_mem _ hpost), rfl, hfits⟩
    · obtain ⟨rfl, hfits⟩ := hnew c hc' n hcap
      exact ⟨_, hopmem', hseq, hfits⟩
  · rw [hcallbacks, List.map_append]
    by_cases hfin : t.target = finished Op
    · rw [if_pos hfin]
      refine List.nodup_append.mpr ⟨h.once, List.nodup_singleton _, ?_⟩
      rintro n hn m hm rfl
      obtain rfl := List.mem_singleton.mp hm
      exact hsource (((h.answered _).mp hn).2 op hopmem rfl)
    · rw [if_neg hfin, List.map_nil, List.append_nil]
      exact h.once
  · intro n
    have hlt : sequenceNumber op < next := by
      have := numbered_mid h.numbered
      have := h.bounded
      omega
    rw [hcallbacks, List.map_append, List.mem_append, h.answered n]
    by_cases hn : n = sequenceNumber op
    · -- this operation was not finished before; it is now iff that is the target
      have hbefore : ¬ (n < next ∧ ∀ o ∈ pre ++ op :: post, sequenceNumber o = n →
          Operation.state o = finished Op) := fun hall => hsource (hall.2 op hopmem hn.symm)
      by_cases hfin : t.target = finished Op
      · rw [if_pos hfin]
        refine ⟨fun _ => ⟨hn ▸ hlt, fun o ho hon => ?_⟩, fun _ => Or.inr (by simp [hn])⟩
        rcases hmem o ho with rfl | ⟨-, hne⟩
        · rw [Operation.state_withState, hfin]
        · exact absurd (hon.trans hn) hne
      · rw [if_neg hfin]
        refine ⟨fun hor => absurd (hor.resolve_right (by simp)) hbefore, fun hall => ?_⟩
        have hst := hall.2 _ hopmem' (hseq.trans hn.symm)
        rw [Operation.state_withState] at hst
        exact absurd hst hfin
    · have hno : n ∉ List.map Prod.fst
          (if t.target = finished Op then [(sequenceNumber op, e)] else []) := by
        by_cases hfin : t.target = finished Op
        · rw [if_pos hfin]; simpa using hn
        · rw [if_neg hfin]; simp
      refine ⟨fun hor => ?_, fun hall => Or.inl ⟨hall.1, fun o ho hon => ?_⟩⟩
      · obtain ⟨h1, h2⟩ := hor.resolve_right hno
        refine ⟨h1, fun o ho hon => ?_⟩
        rcases hmem o ho with rfl | ⟨hold, -⟩
        · exact absurd (hon.symm.trans hseq) hn
        · exact h2 o hold hon
      · rcases List.mem_append.mp ho with hpre | hmid
        · exact hall.2 o (List.mem_append_left _ hpre) hon
        · rcases List.mem_cons.mp hmid with rfl | hpost
          · exact absurd hon.symm hn
          · exact hall.2 o (List.mem_append_right _ (List.mem_cons_of_mem _ hpost)) hon

omit [DecidableEq State] in
/-- A finished operation has nothing outstanding, so nobody misses it when it is popped. -/
theorem sideInv_pop {K : Capture Op Call} {bound next : Nat} {io : Io Call} {op : Op}
    {rest : List Op} (hidle : K.pending op = 0) (h : SideInv K bound next io (op :: rest))
    (hfin : Operation.state op = finished Op) : SideInv K bound next io rest := by
  refine ⟨h.numbered.2, h.bounded, fun o ho => h.wf o (List.mem_cons_of_mem _ ho),
    fun o ho => h.counted o (List.mem_cons_of_mem _ ho), ?_, h.once, ?_⟩
  · intro c hc n hcap
    obtain ⟨o, ho, rfl, hfits⟩ := h.stored c hc n hcap
    rcases List.mem_cons.mp ho with rfl | hrest
    · exact absurd hcap (h.no_call (List.mem_cons_self ..) hidle hc)
    · exact ⟨o, hrest, rfl, hfits⟩
  · intro n
    rw [h.answered n]
    refine ⟨fun hall => ⟨hall.1, fun o ho => hall.2 o (List.mem_cons_of_mem _ ho)⟩,
      fun hall => ⟨hall.1, fun o ho hon => ?_⟩⟩
    rcases List.mem_cons.mp ho with rfl | hrest
    · exact hfin
    · exact hall.2 o hrest hon

theorem sideInv_preserves {K : Capture Op Call} {ts : List (Transition (Io Call) Op State)}
    (hs : Sound K ts) (bound next : Nat) :
    Preserves ts (fun io ops => SideInv K bound next io ops) (fun _ _ => False) where
  numbered := fun _ _ h => ⟨bound, h.numbered⟩
  fire := by
    intro io pre op post t h ht hsource hcond
    have hwf := h.wf op (List.mem_append_right _ (List.mem_cons_self ..))
    refine (hs.fire t ht io op _ hwf hsource hcond).imp (fun y hy => ?_) (fun _ hno => hno)
    exact sideInv_fire (hsource ▸ hs.notFinished t ht) h hy
  pop := fun _ op _ h hfin => sideInv_pop (hs.idle op hfin) h hfin

-- ── Sides between two tasks ──────────────────────────────────────────────────

/-- A side between two tasks: the invariant holds and the front is not finished. -/
structure Sided (K : Capture Op Call) (bound : Nat) (x : Side Op Call) : Prop where
  inv : SideInv K bound x.next x.io x.ops
  frontOpen : FrontOpen x.ops

/-- A side at rest: moreover, no transition is enabled. -/
structure Rested (K : Capture Op Call) (ts : List (Transition (Io Call) Op State)) (bound : Nat)
    (x : Side Op Call) : Prop extends Sided K bound x where
  stable : Stable ts x.ops

section Rules

variable {K : Capture Op Call} {ts : List (Transition (Io Call) Op State)} {bound : Nat}

omit [DecidableEq State] in
/-- The stored numbers are below the next one. -/
theorem SideInv.lt_next {next : Nat} {io : Io Call} {ops : List Op}
    (h : SideInv K bound next io ops) {op : Op} (hop : op ∈ ops) : sequenceNumber op < next := by
  obtain ⟨a, b, rfl⟩ := List.append_of_mem hop
  have := numbered_mid h.numbered
  have := h.bounded
  omega

theorem advanceOneOperation_sided (hs : Sound K ts) {next : Nat} {io : Io Call}
    {pre post : List Op} {op : Op} {y : Io Call × List Op × Bool}
    (h : SideInv K bound next io (pre ++ op :: post) ∧ FrontOpen (pre ++ op :: post))
    (hadv : advanceOneOperation ts io (pre ++ op :: post) pre.length op = .returns y) :
    SideInv K bound next y.1 y.2.1 ∧ FrontOpen y.2.1 := by
  have hinv := advanceOneOperation_preserves (sideInv_preserves hs bound next) h.1
  rw [hadv] at hinv
  exact ⟨hinv, advanceOneOperation_frontOpen h.2 hadv⟩

theorem sided_advance (hs : Sound K ts) {x : Side Op Call} {n : Nat} (h : Sided K bound x) :
    Sided K bound (x.advance ts n) := by
  have hpost := advanceOperation_preserves (sideInv_preserves hs bound x.next) n h.inv
  rw [Side.advance]
  cases hadv : advanceOperation ts x.io x.ops n with
  | throws y => rw [hadv] at hpost; exact hpost.elim
  | returns y =>
      obtain ⟨hinv, hopen⟩ := advanceOperation_induct (P := fun io ops =>
        SideInv K bound x.next io ops ∧ FrontOpen ops) (fun _ _ h => ⟨bound, h.1.numbered⟩)
        (fun _ _ _ _ _ hz hone => advanceOneOperation_sided hs hz hone)
        ⟨h.inv, h.frontOpen⟩ hadv
      exact ⟨hinv, hopen⟩

theorem sided_advanceAll (hs : Sound K ts) {x : Side Op Call} (h : Sided K bound x) :
    Sided K bound (x.advanceAll ts) := by
  have hpost := advanceAllOperations_preserves (sideInv_preserves hs bound x.next) h.inv
  rw [Side.advanceAll]
  cases hadv : advanceAllOperations ts x.io x.ops with
  | throws y => rw [hadv] at hpost; exact hpost.elim
  | returns y =>
      obtain ⟨hinv, hopen⟩ := advanceAllOperations_induct (P := fun io ops =>
        SideInv K bound x.next io ops ∧ FrontOpen ops) (fun _ _ h => ⟨bound, h.1.numbered⟩)
        (fun _ _ _ _ _ hz hone => advanceOneOperation_sided hs hz hone)
        ⟨h.inv, h.frontOpen⟩ hadv
      exact ⟨hinv, hopen⟩

/-- **Advance rule.**  Only one operation may be enabled, and it is advanced. -/
theorem rested_advance (hs : Sound K ts) (hf : Forward ts) {x : Side Op Call} {n : Nat}
    (h : Sided K bound x) (hmem : ∃ o ∈ x.ops, sequenceNumber o = n)
    (hch : Chained (fun p o => sequenceNumber o = n ∨ ¬ Enabled ts p o) (finished Op) x.ops) :
    Rested K ts bound (x.advance ts n) := by
  refine ⟨sided_advance hs h, ?_⟩
  have hpost := advanceOperation_preserves (sideInv_preserves hs bound x.next) n h.inv
  obtain ⟨o, ho, rfl⟩ := hmem
  rw [Side.advance]
  cases hadv : advanceOperation ts x.io x.ops (sequenceNumber o) with
  | throws y => rw [hadv] at hpost; exact hpost.elim
  | returns y =>
      exact advanceOperation_stable hf h.inv.numbered (numbered_reach h.inv.numbered ho) hch hadv

/-- **Advance-all rule.**  Flags of the subject changed, and with them the transitions. -/
theorem rested_advanceAll (hs : Sound K ts) (hf : Forward ts) {x : Side Op Call}
    (h : Sided K bound x)
    (hwalk : (∀ front rest, x.ops = front :: rest →
        ∀ z, transition ts (finished Op) (x.io, front) = .returns z →
          Operation.state z.2 ≠ finished Op)
      ∨ (∀ o ∈ x.ops, ∀ o' ∈ x.ops, sequenceNumber o ≤ sequenceNumber o' →
          Operation.state o = finished Op → Operation.state o' = finished Op)) :
    Rested K ts bound (x.advanceAll ts) := by
  refine ⟨sided_advanceAll hs h, ?_⟩
  have hpost := advanceAllOperations_preserves (sideInv_preserves hs bound x.next) h.inv
  rw [Side.advanceAll]
  cases hadv : advanceAllOperations ts x.io x.ops with
  | throws y => rw [hadv] at hpost; exact hpost.elim
  | returns y =>
      rcases hwalk with hstay | hlast
      · cases hops : x.ops with
        | nil =>
            rw [hops] at hadv
            obtain rfl := Outcome.returns.inj hadv
            trivial
        | cons front rest =>
            have hnum := h.inv.numbered
            rw [hops] at hadv hnum
            exact advanceAllOperations_stable_of_front hf hnum (hstay front rest hops) hadv
      · exact advanceAllOperations_stable_of_last hf h.inv.numbered hlast hadv

omit [DecidableEq State] in
/-- A new operation at the back, before it is advanced. -/
theorem sided_push {x : Side Op Call} {op : Op} (h : Sided K x.next x)
    (hnumber : sequenceNumber op = x.next) (hstate : Operation.state op ≠ finished Op)
    (hwf : K.Wf op) (hpending : K.pending op = 0) :
    Sided K (x.next + 1) { x with next := x.next + 1, ops := x.ops ++ [op] } := by
  have hno : ∀ c ∈ x.io.calls, K.captures c ≠ some x.next := by
    intro c hc hcap
    obtain ⟨o, ho, hon, -⟩ := h.inv.stored c hc _ hcap
    have := h.inv.lt_next ho
    omega
  constructor
  · refine ⟨numbered_snoc h.inv.numbered hnumber, Nat.le_refl _, ?_, ?_, ?_, h.inv.once, ?_⟩
    · intro o ho
      rcases List.mem_append.mp ho with hold | hnew
      · exact h.inv.wf o hold
      · rw [List.mem_singleton.mp hnew]
        exact hwf
    · intro o ho
      rcases List.mem_append.mp ho with hold | hnew
      · exact h.inv.counted o hold
      · obtain rfl := List.mem_singleton.mp hnew
        rw [hpending, hnumber, Capture.outstanding, List.countP_eq_zero]
        intro c hc hcap
        exact hno c hc (beq_iff_eq.mp hcap)
    · intro c hc n hcap
      obtain ⟨o, ho, hon, hfits⟩ := h.inv.stored c hc n hcap
      exact ⟨o, List.mem_append_left _ ho, hon, hfits⟩
    · intro n
      show n ∈ x.io.callbacks.map Prod.fst ↔ _
      rw [h.inv.answered n]
      constructor
      · rintro ⟨hn, hall⟩
        refine ⟨Nat.lt_succ_of_lt hn, fun o ho hon => ?_⟩
        rcases List.mem_append.mp ho with hold | hnew
        · exact hall o hold hon
        · obtain rfl := List.mem_singleton.mp hnew
          omega
      · rintro ⟨hn, hall⟩
        have hne : n ≠ x.next := by
          rintro rfl
          exact hstate (hall op (List.mem_append_right _ (List.mem_singleton_self _)) hnumber)
        refine ⟨by have : n < x.next + 1 := hn; omega, fun o ho => ?_⟩
        exact hall o (List.mem_append_left _ ho)
  · intro front rest hfront
    cases hops : x.ops with
    | nil =>
        rw [show _ = x.ops ++ [op] from rfl, hops] at hfront
        obtain ⟨rfl, -⟩ := List.cons.inj hfront
        exact hstate
    | cons hd tl =>
        rw [show _ = x.ops ++ [op] from rfl, hops] at hfront
        obtain ⟨rfl, -⟩ := List.cons.inj hfront
        exact h.frontOpen hd tl hops

/-- **Submit rule.** -/
theorem rested_submit (hs : Sound K ts) (hf : Forward ts) {x : Side Op Call} {op : Op}
    (h : Rested K ts x.next x) (hnumber : sequenceNumber op = x.next)
    (hstate : Operation.state op ≠ finished Op) (hwf : K.Wf op) (hpending : K.pending op = 0) :
    Rested K ts (x.next + 1) (x.submit ts op) :=
  rested_advance hs hf (sided_push h.toSided hnumber hstate hwf hpending)
    ⟨op, List.mem_append_right _ (List.mem_singleton_self _), hnumber⟩
    (hnumber ▸ stable_push op h.stable)

omit [DecidableEq State] in
/-- **Refuse rule.** -/
theorem sided_refuse {x : Side Op Call} (h : Sided K bound x) : Sided K bound x.refuse := by
  refine ⟨⟨h.inv.numbered, Nat.le_succ_of_le h.inv.bounded, h.inv.wf, h.inv.counted,
    h.inv.stored, ?_, ?_⟩, h.frontOpen⟩
  · show ((x.io.callbacks ++ [(x.next, true)]).map Prod.fst).Nodup
    rw [List.map_append]
    refine List.nodup_append.mpr ⟨h.inv.once, List.nodup_singleton _, ?_⟩
    rintro n hn m hm rfl
    obtain rfl := List.mem_singleton.mp hm
    exact Nat.lt_irrefl _ ((h.inv.answered _).mp hn).1
  · intro n
    show n ∈ (x.io.callbacks ++ [(x.next, true)]).map Prod.fst ↔ n < x.next + 1 ∧ _
    rw [List.map_append, List.mem_append, h.inv.answered n]
    constructor
    · rintro (⟨hn, hall⟩ | hn)
      · exact ⟨Nat.lt_succ_of_lt hn, hall⟩
      · obtain rfl := List.mem_singleton.mp hn
        refine ⟨Nat.lt_succ_self _, fun o ho hon => ?_⟩
        have := h.inv.lt_next ho
        omega
    · rintro ⟨hn, hall⟩
      by_cases hlast : n = x.next
      · exact Or.inr (by simp [hlast])
      · exact Or.inl ⟨by omega, hall⟩

variable [DecidableEq Call]

omit [DecidableEq State] in
/-- **Forget rule.** -/
theorem sided_forget {x : Side Op Call} (h : Sided K bound x) {c : Call}
    (hcap : K.captures c = none) : Sided K bound (x.forget c) := by
  refine ⟨⟨h.inv.numbered, h.inv.bounded, h.inv.wf, ?_, ?_, h.inv.once, h.inv.answered⟩,
    h.frontOpen⟩
  · intro op hop
    rw [← h.inv.counted op hop]
    show (x.io.calls.erase c).countP _ = x.io.calls.countP _
    rw [List.countP_erase, hcap]
    simp
  · intro c' hc' n hn
    exact h.inv.stored c' (List.mem_of_mem_erase hc') n hn

/-- What the report of a call must do to the operation that the call captured: leave its
    state and number alone, and make it wait for one call less. -/
structure Reports (K : Capture Op Call) (x : Side Op Call) (c : Call) (n : Nat) (f : Op → Op) :
    Prop where
  outstanding : c ∈ x.io.calls
  captures : K.captures c = some n
  state : ∀ op, Operation.state (f op) = Operation.state op
  number : ∀ op, sequenceNumber (f op) = sequenceNumber op
  pending : ∀ op ∈ x.ops, sequenceNumber op = n → K.Wf op → K.Fits op c →
    K.Wf (f op) ∧ K.pending (f op) + 1 = K.pending op
  fits : ∀ op c', K.Fits op c' → 0 < K.pending (f op) → K.Fits (f op) c'

omit [DecidableEq State] in
/-- A report, before the operation is advanced. -/
theorem sided_modify {x : Side Op Call} (h : Sided K bound x) {c : Call} {n : Nat} {f : Op → Op}
    (hr : Reports K x c n f) :
    Sided K bound { x with io := x.io.reported c, ops := modifyOperation n f x.ops }
      ∧ ∃ o ∈ modifyOperation n f x.ops, sequenceNumber o = n := by
  obtain ⟨op, hop, rfl, hopc⟩ := h.inv.stored c hr.outstanding n hr.captures
  obtain ⟨hwf, hless⟩ := hr.pending op hop rfl (h.inv.wf op hop) hopc
  obtain ⟨pre, post, hsplit⟩ := List.append_of_mem hop
  have hnum := h.inv.numbered
  rw [hsplit] at hnum
  have hmod : modifyOperation (sequenceNumber op) f x.ops = pre ++ f op :: post := by
    rw [hsplit]
    exact modifyOperation_mid hnum f
  have hmem : ∀ o, o ∈ pre ++ f op :: post →
      o = f op ∨ (o ∈ x.ops ∧ sequenceNumber o ≠ sequenceNumber op) := by
    intro o ho
    rw [hsplit]
    rcases List.mem_append.mp ho with hpre | hmid
    · exact Or.inr ⟨List.mem_append_left _ hpre, numbered_ne hnum (Or.inl hpre)⟩
    · rcases List.mem_cons.mp hmid with rfl | hpost
      · exact Or.inl rfl
      · exact Or.inr ⟨List.mem_append_right _ (List.mem_cons_of_mem _ hpost),
          numbered_ne hnum (Or.inr hpost)⟩
  have hfmem : f op ∈ pre ++ f op :: post := List.mem_append_right _ (List.mem_cons_self ..)
  -- one call less is outstanding for the operation, and as many for every other
  have hcount : ∀ o ∈ pre ++ f op :: post,
      K.outstanding (x.io.reported c) (sequenceNumber o) = K.pending o := by
    intro o ho
    show (x.io.calls.erase c).countP _ = _
    rw [List.countP_erase]
    rcases hmem o ho with rfl | ⟨hold, hne⟩
    · have hcounted := h.inv.counted op hop
      rw [Capture.outstanding] at hcounted
      rw [hr.number, hcounted,
        if_pos ⟨hr.outstanding, by rw [hr.captures]; exact beq_self_eq_true _⟩]
      omega
    · have hother : ¬ (c ∈ x.io.calls ∧ (K.captures c == some (sequenceNumber o)) = true) := by
        rintro ⟨-, heq⟩
        rw [hr.captures] at heq
        exact hne (Option.some.inj (beq_iff_eq.mp heq)).symm
      rw [if_neg hother]
      exact h.inv.counted o hold
  rw [hmod]
  refine ⟨⟨⟨numbered_set hnum (hr.number op), h.inv.bounded, ?_, hcount, ?_, h.inv.once, ?_⟩, ?_⟩,
    f op, hfmem, hr.number op⟩
  · intro o ho
    rcases hmem o ho with rfl | ⟨hold, -⟩
    · exact hwf
    · exact h.inv.wf o hold
  · intro c' hc' m hm
    obtain ⟨o, ho, rfl, hoc⟩ := h.inv.stored c' (List.mem_of_mem_erase hc') m hm
    rw [hsplit] at ho
    rcases List.mem_append.mp ho with hpre | hmid
    · exact ⟨o, List.mem_append_left _ hpre, rfl, hoc⟩
    · rcases List.mem_cons.mp hmid with rfl | hpost
      · refine ⟨f o, hfmem, hr.number o, hr.fits o c' hoc ?_⟩
        rw [← hcount (f o) hfmem, hr.number, Capture.outstanding]
        exact List.countP_pos_iff.mpr ⟨c', hc', by rw [hm]; exact beq_self_eq_true _⟩
      · exact ⟨o, List.mem_append_right _ (List.mem_cons_of_mem _ hpost), rfl, hoc⟩
  · intro m
    show m ∈ x.io.callbacks.map Prod.fst ↔ _
    rw [h.inv.answered m]
    refine and_congr_right (fun _ => ⟨fun hall o ho hon => ?_, fun hall o ho hon => ?_⟩)
    · rcases hmem o ho with rfl | ⟨hold, -⟩
      · rw [hr.state]
        exact hall op hop ((hr.number op).symm.trans hon)
      · exact hall o hold hon
    · rw [hsplit] at ho
      rcases List.mem_append.mp ho with hpre | hmid
      · exact hall o (List.mem_append_left _ hpre) hon
      · rcases List.mem_cons.mp hmid with rfl | hpost
        · rw [← hr.state]
          exact hall _ hfmem ((hr.number o).trans hon)
        · exact hall o (List.mem_append_right _ (List.mem_cons_of_mem _ hpost)) hon
  · intro front rest hfront
    cases pre with
    | nil =>
        obtain ⟨rfl, -⟩ := List.cons.inj hfront
        rw [hr.state]
        exact h.frontOpen op post hsplit
    | cons hd tl =>
        obtain ⟨rfl, -⟩ := List.cons.inj hfront
        exact h.frontOpen hd _ hsplit

/-- **Report rule.** -/
theorem rested_report (hs : Sound K ts) (hf : Forward ts) {x : Side Op Call}
    (h : Rested K ts bound x) {c : Call} {n : Nat} {f : Op → Op} (hr : Reports K x c n f) :
    Rested K ts bound (x.report ts c n f) := by
  obtain ⟨hsided, hmem⟩ := sided_modify h.toSided hr
  exact rested_advance hs hf hsided hmem (stable_modify hr.state hr.number h.stable)

end Rules

-- ── Sides that refuse once there is an error ─────────────────────────────────

/-- A side at rest that has refused nothing as long as there is no error. -/
def Resting (K : Capture Op Call) (ts : List (Transition (Io Call) Op State)) (error : Bool)
    (x : Side Op Call) : Prop :=
  ∃ bound, (error = false → bound = x.next) ∧ Rested K ts bound x

section Resting

variable {K : Capture Op Call} {ts : List (Transition (Io Call) Op State)} {error : Bool}
  {x : Side Op Call}

omit [DecidableEq State] in
theorem resting_empty : Resting K ts error ({} : Side Op Call) := by
  refine ⟨0, fun _ => rfl,
    ⟨⟨trivial, Nat.le_refl _, nofun, nofun, nofun, List.nodup_nil, ?_⟩, nofun⟩, trivial⟩
  intro n
  exact ⟨fun hn => (nomatch hn), fun hn => absurd hn.1 (Nat.not_lt_zero n)⟩

theorem resting_submit (hs : Sound K ts) (hf : Forward ts) {op : Op}
    (h : Resting K ts false x) (hnumber : sequenceNumber op = x.next)
    (hstate : Operation.state op ≠ finished Op) (hwf : K.Wf op) (hpending : K.pending op = 0) :
    Resting K ts false (x.submit ts op) := by
  obtain ⟨bound, hbound, hrest⟩ := h
  obtain rfl := hbound rfl
  exact ⟨_, fun _ => rfl, rested_submit hs hf hrest hnumber hstate hwf hpending⟩

omit [DecidableEq State] in
theorem resting_refuse (h : Resting K ts true x) : Resting K ts true x.refuse := by
  obtain ⟨bound, -, hrest⟩ := h
  exact ⟨bound, nofun, sided_refuse hrest.toSided, hrest.stable⟩

theorem resting_advanceAll {ts' : List (Transition (Io Call) Op State)} {error' : Bool}
    (hs : Sound K ts') (hf : Forward ts') (h : Resting K ts error x)
    (herror : error' = false → error = false)
    (hwalk : (∀ front rest, x.ops = front :: rest → ¬ Enabled ts' (finished Op) front)
      ∨ (∀ front rest, x.ops = front :: rest →
        ∀ z, transition ts' (finished Op) (x.io, front) = .returns z →
          Operation.state z.2 ≠ finished Op)
      ∨ (∀ o ∈ x.ops, ∀ o' ∈ x.ops, sequenceNumber o ≤ sequenceNumber o' →
          Operation.state o = finished Op → Operation.state o' = finished Op)) :
    Resting K ts' error' (x.advanceAll ts') := by
  obtain ⟨bound, hbound, hrest⟩ := h
  refine ⟨bound, fun he => hbound (herror he), rested_advanceAll hs hf hrest.toSided ?_⟩
  rcases hwalk with hstay | hwalk
  · refine Or.inl (fun front rest hops z hz => ?_)
    rw [transition_of_not_enabled (hstay front rest hops)] at hz
    obtain rfl := Outcome.returns.inj hz
    exact hrest.frontOpen front rest hops
  · exact hwalk

variable [DecidableEq Call]

omit [DecidableEq State] in
theorem resting_forget (h : Resting K ts error x) {c : Call} (hcap : K.captures c = none) :
    Resting K ts error (x.forget c) := by
  obtain ⟨bound, hbound, hrest⟩ := h
  exact ⟨bound, hbound, sided_forget hrest.toSided hcap, hrest.stable⟩

theorem resting_report (hs : Sound K ts) (hf : Forward ts) (h : Resting K ts error x)
    {c : Call} {n : Nat} {f : Op → Op} (hr : Reports K x c n f) :
    Resting K ts error (x.report ts c n f) := by
  obtain ⟨bound, hbound, hrest⟩ := h
  exact ⟨bound, hbound, rested_report hs hf hrest hr⟩

end Resting

/-- A walk leaves alone what it does not write: it only adds calls. -/
theorem advanceAll_calls {K : Capture Op Call} {ts : List (Transition (Io Call) Op State)}
    (hs : Sound K ts) {bound : Nat} {x : Side Op Call}
    (hinv : SideInv K bound x.next x.io x.ops) {c : Call} (hc : c ∈ x.io.calls) :
    c ∈ (x.advanceAll ts).io.calls := by
  have hpres : Preserves ts (fun io ops => SideInv K bound x.next io ops ∧ c ∈ io.calls)
      (fun _ _ => False) := by
    refine ⟨fun _ _ h => ⟨bound, h.1.numbered⟩, ?_, ?_⟩
    · intro io pre op post t h ht hsource hcond
      have hwf := h.1.wf op (List.mem_append_right _ (List.mem_cons_self ..))
      refine (hs.fire t ht io op _ hwf hsource hcond).imp (fun y hy => ?_) (fun _ hno => hno)
      obtain ⟨new, hcalls, -⟩ := hy.calls
      refine ⟨sideInv_fire (hsource ▸ hs.notFinished t ht) h.1 hy, ?_⟩
      rw [hcalls]
      exact List.mem_append_left _ h.2
    · intro io op rest h hfin
      exact ⟨sideInv_pop (hs.idle op hfin) h.1 hfin, h.2⟩
  have hpost := advanceAllOperations_preserves hpres (show _ ∧ c ∈ x.io.calls from ⟨hinv, hc⟩)
  rw [Side.advanceAll]
  cases hadv : advanceAllOperations ts x.io x.ops with
  | throws y => rw [hadv] at hpost; exact hpost.elim
  | returns y => rw [hadv] at hpost; exact hpost.2

-- ── What a side at rest guarantees ───────────────────────────────────────────

/-- Each callback is invoked at most once and never while a call of its operation is
    outstanding, and an outstanding call that captured an operation finds it in the queue,
    not finished. -/
structure SideSafe (captures : Call → Option Nat) (x : Side Op Call) : Prop where
  once : (x.io.callbacks.map Prod.fst).Nodup
  notEarly : ∀ n ∈ x.io.callbacks.map Prod.fst, ∀ c ∈ x.io.calls, captures c ≠ some n
  valid : ∀ c ∈ x.io.calls, ∀ n, captures c = some n →
    ∃ op ∈ x.ops, sequenceNumber op = n ∧ Operation.state op ≠ finished Op

omit [DecidableEq State] in
theorem sideSafe_of_sided {K : Capture Op Call} {bound : Nat} {x : Side Op Call}
    (hidle : ∀ op : Op, Operation.state op = finished Op → K.pending op = 0)
    (hside : Sided K bound x) : SideSafe K.captures x := by
  have h := hside.inv
  have hvalid : ∀ c ∈ x.io.calls, ∀ n, K.captures c = some n →
      ∃ op ∈ x.ops, sequenceNumber op = n ∧ Operation.state op ≠ finished Op := by
    intro c hc n hcap
    obtain ⟨op, hop, rfl, -⟩ := h.stored c hc n hcap
    exact ⟨op, hop, rfl, fun hfin => h.no_call hop (hidle op hfin) hc hcap⟩
  refine ⟨h.once, fun n hn c hc hcap => ?_, hvalid⟩
  obtain ⟨op, hop, hon, hst⟩ := hvalid c hc n hcap
  exact hst (((h.answered n).mp hn).2 op hop hon)

/-- Nothing is stored and every number has been called back. -/
def Flushed (x : Side Op Call) : Prop :=
  x.ops = [] ∧ ∀ n < x.next, n ∈ x.io.callbacks.map Prod.fst

omit [DecidableEq State] in
/-- If an operation that cannot move always waits for a call, a side with no calls
    outstanding is empty. -/
theorem flushed_of_rested {K : Capture Op Call} {ts : List (Transition (Io Call) Op State)}
    {bound : Nat} {x : Side Op Call} (h : Rested K ts bound x)
    (hwait : ∀ prev op, ¬ Enabled ts prev op → Operation.state op ≠ finished Op →
      0 < K.pending op)
    (hcalls : x.io.calls = []) : Flushed x := by
  have hempty : x.ops = [] := by
    cases hops : x.ops with
    | nil => rfl
    | cons front rest =>
        have hst := h.stable
        rw [hops] at hst
        have hpos := hwait _ front hst.1 (h.frontOpen front rest hops)
        have hcount := h.inv.counted front (by rw [hops]; exact List.mem_cons_self ..)
        rw [Capture.outstanding, hcalls, List.countP_nil] at hcount
        omega
  refine ⟨hempty, fun n hn => (h.inv.answered n).mpr ⟨hn, fun op hop => ?_⟩⟩
  rw [hempty] at hop
  exact nomatch hop

end TpStateMachine
