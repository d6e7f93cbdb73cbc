import Mathlib.Data.List.Basic
import Mathlib.Order.Basic
import Mathlib.Tactic.Common

/-! # The operation queue — in-order state machines over a deque

    A subject owns a deque of numbered operations.  Each operation carries a
    state, and the subject advances it by trying a FIXED LIST of transitions in
    order, each gated by the operation's own flags and by the state of the
    operation just before it in the queue.

    This file names no subject.  It has

    * `Transition`, `attemptTransition`, `transition`: one pass over the list;
    * `findOperation`, `advanceOneOperation`, `advanceOperation`,
      `advanceAllOperations`: the deque walks, by sequence number, with the
      finished operations popped off the front;
    * `Numbered` and `Chained`: consecutive numbers, and a relation between each
      operation and the state of its predecessor;
    * the invariant rule (`advanceOperation_preserves`,
      `advanceAllOperations_preserves`): what every firing transition and every
      pop keeps, the walks keep;
    * the progress rule (`advanceOperation_stable`,
      `advanceAllOperations_stable`): after a walk no transition is left
      enabled, provided the list only ever points forward.

    Actions may throw.  `Outcome` keeps the state that the throwing call leaves
    behind, so a result about thrown calls is a result about that state. -/

namespace TpStateMachine

-- ── Calls that may throw ─────────────────────────────────────────────────────

/-- The two ways out of a call; both carry the state it leaves behind. -/
inductive Outcome (α : Type) where
  | returns (a : α)
  | throws (a : α)
deriving DecidableEq, Repr

namespace Outcome

variable {α β : Type}

/-- The state left behind, however the call ended. -/
def state : Outcome α → α
  | .returns a => a
  | .throws a => a

/-- Sequencing: an exception skips the rest. -/
def bind : Outcome α → (α → Outcome α) → Outcome α
  | .returns a, f => f a
  | .throws a, _ => .throws a

/-- Sequencing into another state; `left` is what an exception leaves of it. -/
def chain (o : Outcome α) (left : α → β) (f : α → Outcome β) : Outcome β :=
  match o with
  | .returns a => f a
  | .throws a => .throws (left a)

/-- Reshape the state on both ways out. -/
def map (f : α → β) : Outcome α → Outcome β
  | .returns a => .returns (f a)
  | .throws a => .throws (f a)

/-- `P` after a normal return, `Q` after an exception. -/
def Post (P Q : α → Prop) : Outcome α → Prop
  | .returns a => P a
  | .throws a => Q a

@[simp] theorem bind_returns (a : α) (f : α → Outcome α) :
    (Outcome.returns a).bind f = f a := rfl
@[simp] theorem bind_throws (a : α) (f : α → Outcome α) :
    (Outcome.throws a).bind f = .throws a := rfl
@[simp] theorem map_returns (f : α → β) (a : α) :
    (Outcome.returns a).map f = .returns (f a) := rfl
@[simp] theorem map_throws (f : α → β) (a : α) :
    (Outcome.throws a).map f = .throws (f a) := rfl
@[simp] theorem post_returns (P Q : α → Prop) (a : α) :
    (Outcome.returns a).Post P Q ↔ P a := Iff.rfl
@[simp] theorem post_throws (P Q : α → Prop) (a : α) :
    (Outcome.throws a).Post P Q ↔ Q a := Iff.rfl

/-- What comes after a computation may rely on what it returns. -/
theorem Post.bind {P P' Q : α → Prop} {o : Outcome α} {f : α → Outcome α}
    (h : o.Post P Q) (hf : ∀ a, P a → (f a).Post P' Q) :
    (o.bind f).Post P' Q := by
  cases o with
  | returns a => exact hf a h
  | throws a => exact h

/-- As before, with another state on the way. -/
theorem Post.chain {P Q : α → Prop} {P' Q' : β → Prop} {o : Outcome α} {left : α → β}
    {f : α → Outcome β} (h : o.Post P Q) (hf : ∀ a, P a → (f a).Post P' Q')
    (hleft : ∀ a, Q a → Q' (left a)) : (o.chain left f).Post P' Q' := by
  cases o with
  | returns a => exact hf a h
  | throws a => exact hleft a h

/-- Less may be promised of either outcome. -/
theorem Post.imp {P P' Q Q' : α → Prop} {o : Outcome α} (h : o.Post P Q)
    (hP : ∀ a, P a → P' a) (hQ : ∀ a, Q a → Q' a) : o.Post P' Q' := by
  cases o with
  | returns a => exact hP a h
  | throws a => exact hQ a h

/-- What is promised of the mapped outcome. -/
theorem Post.map {f : α → β} {P Q : β → Prop} {o : Outcome α}
    (h : o.Post (fun a => P (f a)) (fun a => Q (f a))) : (o.map f).Post P Q := by
  cases o with
  | returns a => exact h
  | throws a => exact h

end Outcome

-- ── Operations, transitions, one pass ────────────────────────────────────────

/-- What the queue needs to know of an operation: its number, its state, how to
    set the state, and the state in which it may leave the queue. -/
class Operation (Op : Type) (State : outParam Type) where
  sequenceNumber : Op → Nat
  state : Op → State
  withState : Op → State → Op
  finished : State
  state_withState : ∀ op st, state (withState op st) = st
  sequenceNumber_withState : ∀ op st,
    sequenceNumber (withState op st) = sequenceNumber op

export Operation (sequenceNumber withState finished)

attribute [simp] Operation.state_withState Operation.sequenceNumber_withState

/-- One guarded transition.  `cond` sees the operation and the state of the one
    before it; the actions run in order, before the state changes. -/
structure Transition (σ Op State : Type) where
  source : State
  target : State
  cond : Op → State → Bool
  actions : List (σ → Op → Outcome (σ × Op))

variable {σ Op State : Type} [Operation Op State] [DecidableEq State]

/-- Run a list of actions on the subject and the operation. -/
def runActions : List (σ → Op → Outcome (σ × Op)) → σ × Op → Outcome (σ × Op)
  | [], x => .returns x
  | a :: rest, x => (a x.1 x.2).bind (runActions rest)

omit [Operation Op State] [DecidableEq State] in
/-- One action. -/
theorem runActions_single (a : σ → Op → Outcome (σ × Op)) (x : σ × Op) :
    runActions [a] x = a x.1 x.2 := by
  rw [runActions]
  cases a x.1 x.2 with
  | returns y => rfl
  | throws y => rfl

/-- Fire the transition if it is enabled; the new state is set only after every
    action returned. -/
def attemptTransition (t : Transition σ Op State) (prevOpState : State)
    (x : σ × Op) : Outcome (σ × Op) :=
  if Operation.state x.2 = t.source ∧ t.cond x.2 prevOpState = true then
    (runActions t.actions x).bind (fun y => .returns (y.1, withState y.2 t.target))
  else .returns x

/-- The transitioner: attempt every transition of the list, once, in order. -/
def transition : List (Transition σ Op State) → State → σ × Op → Outcome (σ × Op)
  | [], _, x => .returns x
  | t :: ts, prev, x => (attemptTransition t prev x).bind (transition ts prev)

-- ── The deque walks ──────────────────────────────────────────────────────────

/-- The offset of an operation in the deque, by sequence number. -/
def findOperation (ops : List Op) (n : Int) : Option Nat :=
  match ops with
  | [] => none
  | front :: _ =>
      let offset := n - (sequenceNumber front : Int)
      if offset < 0 ∨ (ops.length : Int) ≤ offset then none else some offset.toNat

/-- The state of the operation numbered just before, or finished if it is gone. -/
def prevOpState (ops : List Op) (op : Op) : State :=
  match (findOperation ops ((sequenceNumber op : Int) - 1)).bind (fun j => ops[j]?) with
  | some prevOp => Operation.state prevOp
  | none => finished Op

/-- Remove as much as we can from the front. -/
def popFinished (ops : List Op) : List Op :=
  ops.dropWhile (fun op => decide (Operation.state op = finished Op))

/-- Advance the operation at an offset; the flag tells whether its state moved. -/
def advanceOneOperation (ts : List (Transition σ Op State)) (s : σ)
    (ops : List Op) (i : Nat) (op : Op) : Outcome (σ × List Op × Bool) :=
  match transition ts (prevOpState ops op) (s, op) with
  | .throws (s', op') => .throws (s', ops.set i op', false)
  | .returns (s', op') =>
      let hasAdvanced := decide (Operation.state op' ≠ Operation.state op)
      if Operation.state op' = finished Op then
        .returns (s', popFinished (ops.set i op'), hasAdvanced)
      else .returns (s', ops.set i op', hasAdvanced)

/-- The loop of `advanceOperation`.  The numbers tried only grow and the deque
    does not, so the length of the deque is fuel enough
    (`advanceOperation_stable` would fail if it were not). -/
def advanceOperationLoop (ts : List (Transition σ Op State)) :
    Nat → σ → List Op → Nat → Outcome (σ × List Op)
  | 0, s, ops, _ => .returns (s, ops)
  | fuel + 1, s, ops, n =>
      match findOperation ops n with
      | none => .returns (s, ops)
      | some i =>
          match ops[i]? with
          | none => .returns (s, ops)
          | some op =>
              if Operation.state op = finished Op then .returns (s, ops)
              else match advanceOneOperation ts s ops i op with
                | .throws (s', ops', _) => .throws (s', ops')
                | .returns (s', ops', hasAdvanced) =>
                    if hasAdvanced then
                      advanceOperationLoop ts fuel s' ops' (n + 1)
                    else .returns (s', ops')

/-- Advance one operation and, as long as each one advances, the next ones. -/
def advanceOperation (ts : List (Transition σ Op State)) (s : σ)
    (ops : List Op) (n : Nat) : Outcome (σ × List Op) :=
  advanceOperationLoop ts ops.length s ops n

/-- The loop of `advanceAllOperations`. -/
def advanceAllOperationsLoop (ts : List (Transition σ Op State)) :
    Nat → σ → List Op → Nat → Outcome (σ × List Op)
  | 0, s, ops, _ => .returns (s, ops)
  | fuel + 1, s, ops, n =>
      match findOperation ops n with
      | none => .returns (s, ops)
      | some i =>
          match ops[i]? with
          | none => .returns (s, ops)
          | some op =>
              match advanceOneOperation ts s ops i op with
              | .throws (s', ops', _) => .throws (s', ops')
              | .returns (s', ops', _) =>
                  advanceAllOperationsLoop ts fuel s' ops' (n + 1)

/-- Try every operation once, front to back. -/
def advanceAllOperations (ts : List (Transition σ Op State)) (s : σ)
    (ops : List Op) : Outcome (σ × List Op) :=
  match ops with
  | [] => .returns (s, ops)
  | front :: _ => advanceAllOperationsLoop ts ops.length s ops (sequenceNumber front)

-- ── Consecutive numbers ──────────────────────────────────────────────────────

/-- The deque holds consecutive numbers, the last one just below `next`.  Counted
    from the back, so popping the front keeps it. -/
def Numbered (next : Nat) : List Op → Prop
  | [] => True
  | op :: rest => sequenceNumber op + rest.length + 1 = next ∧ Numbered next rest

omit [DecidableEq State] in
/-- The operations at the back are numbered as they were. -/
theorem numbered_append {next : Nat} {pre post : List Op} :
    Numbered next (pre ++ post) → Numbered next post := by
  induction pre with
  | nil => exact id
  | cons op rest ih => intro h; exact ih h.2

omit [DecidableEq State] in
/-- Where an operation stands in the deque fixes its number. -/
theorem numbered_mid {next : Nat} {pre post : List Op} {op : Op}
    (h : Numbered next (pre ++ op :: post)) :
    sequenceNumber op + post.length + 1 = next :=
  (numbered_append h).1

omit [DecidableEq State] in
/-- An operation at the front has a smaller number than those at the back. -/
theorem numbered_pre {next : Nat} {pre post : List Op} (op : Op)
    (h : Numbered next (pre ++ post)) (hop : op ∈ pre) :
    sequenceNumber op + post.length < next := by
  induction pre with
  | nil => exact nomatch hop
  | cons hd rest ih =>
      rw [List.cons_append] at h
      rcases List.mem_cons.mp hop with heq | hmem
      · have h1 := h.1
        rw [List.length_append] at h1
        rw [heq]
        omega
      · exact ih h.2 hmem

omit [DecidableEq State] in
/-- An operation has a smaller number than those after it. -/
theorem numbered_post {next : Nat} {pre post : List Op} {op op' : Op}
    (h : Numbered next (pre ++ op :: post)) (hop : op' ∈ post) :
    sequenceNumber op < sequenceNumber op' := by
  have h1 := numbered_mid h
  have h2 := (numbered_append h).2
  obtain ⟨a, b, hab⟩ := List.append_of_mem hop
  rw [hab] at h1 h2
  have h3 := numbered_mid h2
  rw [List.length_append, List.length_cons] at h1
  omega

omit [DecidableEq State] in
/-- The first operation has the smallest number. -/
theorem numbered_front {next : Nat} {post : List Op} {op op' : Op}
    (h : Numbered next (op :: post)) (hop : op' ∈ post) :
    sequenceNumber op < sequenceNumber op' :=
  numbered_post (show Numbered next ([] ++ op :: post) from h) hop

omit [DecidableEq State] in
/-- Different places in the deque have different numbers. -/
theorem numbered_ne {next : Nat} {pre post : List Op} {op op' : Op}
    (h : Numbered next (pre ++ op :: post)) (hop : op' ∈ pre ∨ op' ∈ post) :
    sequenceNumber op' ≠ sequenceNumber op := by
  rcases hop with hpre | hpost
  · have h1 := numbered_mid h
    have h2 := numbered_pre op' h hpre
    rw [List.length_cons] at h2
    omega
  · have := numbered_post h hpost
    omega

omit [DecidableEq State] in
/-- Looking for the number of an operation finds that operation. -/
theorem numbered_find {next : Nat} {ops : List Op} {op : Op} (h : Numbered next ops)
    (hop : op ∈ ops) : ops.find? (fun o => sequenceNumber o == sequenceNumber op) = some op := by
  obtain ⟨pre, post, rfl⟩ := List.append_of_mem hop
  have hnone : ∀ o ∈ pre, ¬ (sequenceNumber o == sequenceNumber op) = true := by
    intro o ho heq
    exact numbered_ne h (Or.inl ho) (beq_iff_eq.mp heq)
  rw [List.find?_append, List.find?_eq_none.mpr hnone, Option.none_or]
  exact List.find?_cons_of_pos (beq_self_eq_true _)

omit [DecidableEq State] in
/-- Rewriting an operation in place keeps the numbering. -/
theorem numbered_set {next : Nat} {pre post : List Op} {op op' : Op}
    (h : Numbered next (pre ++ op :: post))
    (hseq : sequenceNumber op' = sequenceNumber op) :
    Numbered next (pre ++ op' :: post) := by
  induction pre with
  | nil => exact ⟨by rw [hseq]; exact h.1, h.2⟩
  | cons hd rest ih =>
      rw [List.cons_append] at h ⊢
      refine ⟨?_, ih h.2⟩
      have h1 := h.1
      rw [List.length_append, List.length_cons] at h1 ⊢
      exact h1

omit [DecidableEq State] in
/-- The numbers of the deque, front to back. -/
theorem numbered_range {next : Nat} {ops : List Op} (h : Numbered next ops) :
    ops.map sequenceNumber = List.range' (next - ops.length) ops.length := by
  induction ops with
  | nil => rfl
  | cons op rest ih =>
      have h1 := h.1
      rw [List.map_cons, ih h.2, List.length_cons, List.range'_succ,
        show next - (rest.length + 1) = sequenceNumber op by omega,
        show next - rest.length = sequenceNumber op + 1 by omega]

omit [DecidableEq State] in
/-- A new operation takes the next number. -/
theorem numbered_snoc {next : Nat} {ops : List Op} {op : Op}
    (h : Numbered next ops) (hseq : sequenceNumber op = next) :
    Numbered (next + 1) (ops ++ [op]) := by
  induction ops with
  | nil => exact ⟨by rw [hseq]; rfl, trivial⟩
  | cons hd rest ih =>
      rw [List.cons_append]
      refine ⟨?_, ih h.2⟩
      have h1 := h.1
      rw [List.length_append, List.length_singleton]
      omega

omit [DecidableEq State] in
/-- A number in the deque is found at its place. -/
theorem findOperation_mid {next : Nat} {pre post : List Op} {op : Op}
    (h : Numbered next (pre ++ op :: post)) :
    findOperation (pre ++ op :: post) (sequenceNumber op) = some pre.length := by
  cases pre with
  | nil =>
      rw [List.nil_append]
      show (if _ ∨ _ then none else _) = _
      rw [if_neg (by rw [List.length_cons]; omega)]
      simp
  | cons front rest =>
      rw [List.cons_append] at h ⊢
      have h1 := h.1
      have h2 := numbered_mid (show Numbered next ((front :: rest) ++ op :: post) from h)
      rw [List.length_append, List.length_cons] at h1
      have hoff : (sequenceNumber op : Int) - (sequenceNumber front : Int)
          = (rest.length + 1 : Nat) := by omega
      show (if _ ∨ _ then none else _) = _
      rw [hoff, if_neg ?_]
      · rfl
      · rw [List.length_cons, List.length_append, List.length_cons]
        omega

omit [DecidableEq State] in
/-- What is found is the operation of that number. -/
theorem exists_of_findOperation {next : Nat} {ops : List Op} {n : Int} {i : Nat}
    (h : Numbered next ops) (hf : findOperation ops n = some i) :
    ∃ pre op post, ops = pre ++ op :: post ∧ pre.length = i
      ∧ (sequenceNumber op : Int) = n := by
  cases ops with
  | nil => exact nomatch hf
  | cons front rest =>
      rw [show findOperation (front :: rest) n
        = if n - (sequenceNumber front : Int) < 0
            ∨ ((front :: rest).length : Int) ≤ n - (sequenceNumber front : Int)
          then none else some (n - (sequenceNumber front : Int)).toNat
        from rfl] at hf
      by_cases hout : n - (sequenceNumber front : Int) < 0
          ∨ ((front :: rest).length : Int) ≤ n - (sequenceNumber front : Int)
      · rw [if_pos hout] at hf
        exact nomatch hf
      · rw [if_neg hout] at hf
        have hi := Option.some.inj hf
        have hlt : i < (front :: rest).length := by omega
        have hsplit := List.take_append_drop i (front :: rest)
        rw [List.drop_eq_getElem_cons hlt] at hsplit
        refine ⟨_, _, _, hsplit.symm, ?_, ?_⟩
        · rw [List.length_take]
          omega
        · have h1 := h.1
          rw [← hsplit] at h
          have h2 := numbered_mid h
          rw [List.length_drop, List.length_cons] at h2
          rw [List.length_cons] at hlt hout
          omega

omit [DecidableEq State] in
/-- The operation between two parts of the sequence. -/
theorem getElem?_mid (pre post : List Op) (op : Op) :
    (pre ++ op :: post)[pre.length]? = some op := by
  simp

-- ── Each operation against its predecessor ───────────────────────────────────

/-- The state of the last operation of a list, or `p` if there is none. -/
def lastState (p : State) : List Op → State
  | [] => p
  | op :: rest => lastState (Operation.state op) rest

/-- `R` between each operation and the state of the one before it; `p` stands
    before the first. -/
def Chained (R : State → Op → Prop) (p : State) : List Op → Prop
  | [] => True
  | op :: rest => R p op ∧ Chained R (Operation.state op) rest

omit [DecidableEq State] in
/-- The last state of two parts of the sequence. -/
theorem lastState_append (p : State) (pre post : List Op) :
    lastState p (pre ++ post) = lastState (lastState p pre) post := by
  induction pre generalizing p with
  | nil => rfl
  | cons op rest ih => exact ih _

omit [DecidableEq State] in
/-- What relates neighbours holds in both parts and where they meet. -/
theorem chained_append {R : State → Op → Prop} {p : State} {pre post : List Op} :
    Chained R p (pre ++ post) ↔ Chained R p pre ∧ Chained R (lastState p pre) post := by
  induction pre generalizing p with
  | nil => exact ⟨fun h => ⟨trivial, h⟩, fun h => h.2⟩
  | cons op rest ih =>
      constructor
      · intro h
        obtain ⟨h1, h2⟩ := ih.mp h.2
        exact ⟨⟨h.1, h1⟩, h2⟩
      · intro h
        exact ⟨h.1.1, ih.mpr ⟨h.1.2, h.2⟩⟩

omit [DecidableEq State] in
/-- Neighbours may be related by less. -/
theorem chained_imp {R S : State → Op → Prop} {p : State} {ops : List Op}
    (himp : ∀ q, ∀ op ∈ ops, R q op → S q op) (h : Chained R p ops) :
    Chained S p ops := by
  induction ops generalizing p with
  | nil => trivial
  | cons op rest ih =>
      exact ⟨himp p op (by simp) h.1,
        ih (fun q o ho => himp q o (by simp [ho])) h.2⟩

omit [DecidableEq State] in
/-- Rewriting an operation in place: it must fit behind its predecessor, and its
    successor must fit behind it. -/
theorem chained_set {R : State → Op → Prop} {p : State} {pre post : List Op}
    {op op' : Op} (h : Chained R p (pre ++ op :: post)) (hop : R (lastState p pre) op')
    (hnext : ∀ o, R (Operation.state op) o → R (Operation.state op') o) :
    Chained R p (pre ++ op' :: post) := by
  obtain ⟨h1, h2⟩ := chained_append.mp h
  refine chained_append.mpr ⟨h1, hop, ?_⟩
  cases post with
  | nil => trivial
  | cons next post => exact ⟨hnext next h2.2.1, h2.2.2⟩

omit [DecidableEq State] in
/-- A new operation at the back. -/
theorem chained_snoc {R : State → Op → Prop} {p : State} {ops : List Op} {op : Op}
    (h : Chained R p ops) (hop : R (lastState p ops) op) : Chained R p (ops ++ [op]) :=
  chained_append.mpr ⟨h, hop, trivial⟩

/-- A finished prefix leaves the rest chained to `finished`. -/
theorem chained_popFinished {R : State → Op → Prop} {ops : List Op}
    (h : Chained R (finished Op) ops) : Chained R (finished Op) (popFinished ops) := by
  induction ops with
  | nil => exact h
  | cons op rest ih =>
      rw [popFinished, List.dropWhile_cons]
      by_cases hfin : Operation.state op = finished Op
      · rw [if_pos (by simpa using hfin)]
        have h2 := h.2
        rw [hfin] at h2
        exact ih h2
      · rw [if_neg (by simpa using hfin)]
        exact h

/-- Popping keeps whatever survives the loss of a finished front. -/
theorem popFinished_induct {P : List Op → Prop}
    (hpop : ∀ op rest, P (op :: rest) → Operation.state op = finished Op → P rest) :
    ∀ ops, P ops → P (popFinished ops) := by
  intro ops
  induction ops with
  | nil => exact id
  | cons op rest ih =>
      intro h
      rw [popFinished, List.dropWhile_cons]
      by_cases hfin : Operation.state op = finished Op
      · rw [if_pos (by simpa using hfin)]
        exact ih (hpop op rest h hfin)
      · rw [if_neg (by simpa using hfin)]
        exact h

/-- After popping, the front is not finished. -/
theorem popFinished_front {ops rest : List Op} {op : Op}
    (h : popFinished ops = op :: rest) : Operation.state op ≠ finished Op := by
  induction ops with
  | nil => exact nomatch h
  | cons hd tl ih =>
      rw [popFinished, List.dropWhile_cons] at h
      by_cases hfin : Operation.state hd = finished Op
      · rw [if_pos (by simpa using hfin)] at h
        exact ih h
      · rw [if_neg (by simpa using hfin)] at h
        obtain ⟨rfl, -⟩ := List.cons.inj h
        exact hfin

/-- Popping adds no operation. -/
theorem mem_of_mem_popFinished {ops : List Op} {op : Op}
    (h : op ∈ popFinished ops) : op ∈ ops :=
  (List.dropWhile_sublist _).mem h

omit [DecidableEq State] in
/-- The predecessor looked up by number is the neighbour in the deque. -/
theorem prevOpState_mid {next : Nat} {pre post : List Op} {op : Op}
    (h : Numbered next (pre ++ op :: post)) :
    prevOpState (pre ++ op :: post) op = lastState (finished Op) pre := by
  rcases List.eq_nil_or_concat pre with hnil | ⟨init, prevOp, hconcat⟩
  · subst hnil
    rw [prevOpState]
    have hnone : findOperation ([] ++ op :: post) ((sequenceNumber op : Int) - 1)
        = none := by
      show (if _ ∨ _ then none else _) = _
      rw [if_pos (Or.inl (by omega))]
    rw [hnone]
    rfl
  · rw [List.concat_eq_append] at hconcat
    subst hconcat
    rw [List.append_assoc, List.singleton_append] at h ⊢
    have h1 := numbered_mid h
    have h2 := numbered_mid (show Numbered next ((init ++ [prevOp]) ++ op :: post) by
      rw [List.append_assoc, List.singleton_append]; exact h)
    rw [List.length_cons] at h1
    have hseq : (sequenceNumber op : Int) - 1 = sequenceNumber prevOp := by omega
    rw [prevOpState, hseq, findOperation_mid h]
    simp [lastState_append, lastState]

-- ── Writing through a pointer into the deque ─────────────────────────────────

/-- Update the operation of a given number, wherever it is. -/
def modifyOperation (n : Nat) (f : Op → Op) (ops : List Op) : List Op :=
  ops.map (fun op => if sequenceNumber op = n then f op else op)

omit [DecidableEq State] in
/-- An operation that is not there is not modified. -/
theorem modifyOperation_of_ne {n : Nat} {f : Op → Op} {ops : List Op}
    (h : ∀ o ∈ ops, sequenceNumber o ≠ n) : modifyOperation n f ops = ops := by
  refine (List.map_congr_left ?_).trans (List.map_id ops)
  intro o ho
  rw [if_neg (h o ho)]
  rfl

omit [DecidableEq State] in
/-- In a numbered deque exactly one operation is written. -/
theorem modifyOperation_mid {next : Nat} {pre post : List Op} {op : Op}
    (h : Numbered next (pre ++ op :: post)) (f : Op → Op) :
    modifyOperation (sequenceNumber op) f (pre ++ op :: post) = pre ++ f op :: post := by
  have hpre : modifyOperation (sequenceNumber op) f pre = pre :=
    modifyOperation_of_ne (fun o ho => numbered_ne h (Or.inl ho))
  have hpost : modifyOperation (sequenceNumber op) f post = post :=
    modifyOperation_of_ne (fun o ho => numbered_ne h (Or.inr ho))
  have hmid : modifyOperation (sequenceNumber op) f (pre ++ op :: post)
      = modifyOperation (sequenceNumber op) f pre
        ++ (if sequenceNumber op = sequenceNumber op then f op else op)
          :: modifyOperation (sequenceNumber op) f post := by
    simp [modifyOperation]
  rw [hmid, hpre, hpost, if_pos rfl]

-- ── Queues whose states never increase ───────────────────────────────────────

omit [DecidableEq State] in
/-- Where neighbours go down in rank, all before are no lower. -/
theorem chained_rank_pre {R : State → Op → Prop} {rank : State → Nat}
    (hR : ∀ p op, R p op → rank (Operation.state op) ≤ rank p) :
    ∀ (pre : List Op) (p : State), Chained R p pre →
      (∀ x ∈ pre, rank (lastState p pre) ≤ rank (Operation.state x))
        ∧ rank (lastState p pre) ≤ rank p := by
  intro pre
  induction pre with
  | nil => intro p _; exact ⟨fun x hx => (nomatch hx), Nat.le_refl _⟩
  | cons op rest ih =>
      intro p h
      obtain ⟨h1, h2⟩ := ih (Operation.state op) h.2
      refine ⟨?_, Nat.le_trans h2 (hR p op h.1)⟩
      intro x hx
      rcases List.mem_cons.mp hx with rfl | hmem
      · exact h2
      · exact h1 x hmem

omit [DecidableEq State] in
/-- Where neighbours go down in rank, all after are no higher. -/
theorem chained_rank_post {R : State → Op → Prop} {rank : State → Nat}
    (hR : ∀ p op, R p op → rank (Operation.state op) ≤ rank p) :
    ∀ (post : List Op) (p : State), Chained R p post →
      ∀ x ∈ post, rank (Operation.state x) ≤ rank p := by
  intro post
  induction post with
  | nil => intro p _ x hx; exact nomatch hx
  | cons op rest ih =>
      intro p h x hx
      have hop := hR p op h.1
      rcases List.mem_cons.mp hx with rfl | hmem
      · exact hop
      · exact Nat.le_trans (ih _ h.2 x hmem) hop

omit [DecidableEq State] in
/-- The rank never increases from the front to the back. -/
theorem chained_pairwise {R : State → Op → Prop} {rank : State → Nat}
    (hR : ∀ p op, R p op → rank (Operation.state op) ≤ rank p) :
    ∀ (ops : List Op) (p : State), Chained R p ops →
      ops.Pairwise (fun a b => rank (Operation.state b) ≤ rank (Operation.state a)) := by
  intro ops
  induction ops with
  | nil => intro p _; exact List.Pairwise.nil
  | cons op rest ih =>
      intro p h
      exact List.Pairwise.cons (chained_rank_post hR rest _ h.2) (ih _ h.2)

omit [DecidableEq State] in
/-- Each operation behind a state has a predecessor no further than that state. -/
theorem chained_post_mem {R : State → Op → Prop} {rank : State → Nat}
    (hR : ∀ p op, R p op → rank (Operation.state op) ≤ rank p) :
    ∀ (post : List Op) (p : State), Chained R p post →
      ∀ x ∈ post, ∃ q, rank q ≤ rank p ∧ R q x := by
  intro post
  induction post with
  | nil => intro p _ x hx; exact nomatch hx
  | cons op rest ih =>
      intro p h x hx
      rcases List.mem_cons.mp hx with rfl | hmem
      · exact ⟨p, Nat.le_refl _, h.1⟩
      · obtain ⟨q, hq, hqx⟩ := ih _ h.2 x hmem
        exact ⟨q, Nat.le_trans hq (hR p op h.1), hqx⟩

omit [DecidableEq State] in
/-- If the predecessor has crossed a threshold and the operation has not, exactly
    the operation and those behind it are below the threshold. -/
theorem countP_below {R : State → Op → Prop} {rank : State → Nat} {k : Nat}
    (hR : ∀ p op, R p op → rank (Operation.state op) ≤ rank p)
    {pre post : List Op} {op : Op} {p : State}
    (h : Chained R p (pre ++ op :: post))
    (hprev : pre ≠ [] → k ≤ rank (lastState p pre)) (hop : rank (Operation.state op) < k) :
    (pre ++ op :: post).countP (fun o => decide (rank (Operation.state o) < k))
      = post.length + 1 := by
  obtain ⟨h1, h2⟩ := chained_append.mp h
  have hpre : pre.countP (fun o => decide (rank (Operation.state o) < k)) = 0 := by
    refine List.countP_eq_zero.mpr ?_
    intro x hx
    have hle := (chained_rank_pre hR pre p h1).1 x hx
    have hk := hprev (by rintro rfl; exact nomatch hx)
    simp only [decide_eq_true_eq]
    omega
  have hpost : post.countP (fun o => decide (rank (Operation.state o) < k))
      = post.length := by
    refine List.countP_eq_length.mpr ?_
    intro x hx
    have hle := chained_rank_post hR post _ h2.2 x hx
    simp only [decide_eq_true_eq]
    omega
  rw [List.countP_append, hpre, List.countP_cons, hpost, if_pos (by simpa using hop)]
  omega

omit [Operation Op State] [DecidableEq State] in
/-- Rewriting one operation moves a count by that operation alone. -/
theorem countP_set (q : Op → Bool) (pre post : List Op) (op op' : Op) :
    (pre ++ op' :: post).countP q + (if q op then 1 else 0)
      = (pre ++ op :: post).countP q + (if q op' then 1 else 0) := by
  rw [List.countP_append, List.countP_append, List.countP_cons, List.countP_cons]
  omega

/-- Finished operations, if any, come first. -/
def FinishedFirst (ops : List Op) : Prop :=
  ∀ pre op post, ops = pre ++ op :: post → Operation.state op = finished Op →
    ∀ x ∈ pre, Operation.state x = finished Op

/-- After popping no operation is finished. -/
theorem noFinished_popFinished {ops : List Op} (h : FinishedFirst ops) :
    ∀ o ∈ popFinished ops, Operation.state o ≠ finished Op := by
  intro o ho hfin
  cases hpop : popFinished ops with
  | nil => rw [hpop] at ho; exact nomatch ho
  | cons front rest =>
      have hfront := popFinished_front hpop
      have hsplit : ops = ops.takeWhile (fun op => decide (Operation.state op = finished Op))
          ++ popFinished ops := (List.takeWhile_append_dropWhile).symm
      rw [hpop] at ho hsplit
      rcases List.mem_cons.mp ho with rfl | hmem
      · exact hfront hfin
      · obtain ⟨a, b, rfl⟩ := List.append_of_mem hmem
        rw [← List.cons_append, ← List.append_assoc] at hsplit
        exact hfront (h _ _ _ hsplit hfin front (by simp))

-- ── The invariant rule ───────────────────────────────────────────────────────

/-- What an invariant `P` owes the queue: every firing transition keeps it (and
    leaves `Q` if an action throws), and so does the loss of a finished front. -/
structure Preserves (ts : List (Transition σ Op State))
    (P Q : σ → List Op → Prop) : Prop where
  numbered : ∀ s ops, P s ops → ∃ next, Numbered next ops
  fire : ∀ s pre op post t, P s (pre ++ op :: post) → t ∈ ts →
    Operation.state op = t.source →
    t.cond op (lastState (finished Op) pre) = true →
    (runActions t.actions (s, op)).Post
      (fun y => P y.1 (pre ++ withState y.2 t.target :: post))
      (fun y => Q y.1 (pre ++ y.2 :: post))
  pop : ∀ s op rest, P s (op :: rest) → Operation.state op = finished Op → P s rest

/-- The attempts of one operation preserve what each preserves. -/
theorem transition_preserves {ts : List (Transition σ Op State)}
    {P Q : σ → List Op → Prop} (h : Preserves ts P Q) {pre post : List Op} :
    ∀ (ts' : List (Transition σ Op State)), (∀ t ∈ ts', t ∈ ts) →
    ∀ (s : σ) (op : Op), P s (pre ++ op :: post) →
      (transition ts' (lastState (finished Op) pre) (s, op)).Post
        (fun y => P y.1 (pre ++ y.2 :: post)) (fun y => Q y.1 (pre ++ y.2 :: post)) := by
  intro ts'
  induction ts' with
  | nil => intro _ s op hP; exact hP
  | cons t rest ih =>
      intro hsub s op hP
      refine Outcome.Post.bind (P := fun y => P y.1 (pre ++ y.2 :: post)) ?_
        (fun y hy => ih (fun t' ht' => hsub t' (by simp [ht'])) y.1 y.2 hy)
      rw [attemptTransition]
      by_cases hen : Operation.state (s, op).2 = t.source
          ∧ t.cond (s, op).2 (lastState (finished Op) pre) = true
      · rw [if_pos hen]
        exact (h.fire s pre op post t hP (hsub t (by simp)) hen.1 hen.2).bind
          (fun y hy => hy)
      · rw [if_neg hen]
        exact hP

/-- Advancing one operation preserves what its attempts preserve. -/
theorem advanceOneOperation_preserves {ts : List (Transition σ Op State)}
    {P Q : σ → List Op → Prop} (h : Preserves ts P Q) {s : σ}
    {pre post : List Op} {op : Op} (hP : P s (pre ++ op :: post)) :
    (advanceOneOperation ts s (pre ++ op :: post) pre.length op).Post
      (fun y => P y.1 y.2.1) (fun y => Q y.1 y.2.1) := by
  obtain ⟨next, hnum⟩ := h.numbered _ _ hP
  have hpost := transition_preserves h ts (fun _ ht => ht) s op hP
  rw [advanceOneOperation, prevOpState_mid hnum]
  cases htr : transition ts (lastState (finished Op) pre) (s, op) with
  | throws y =>
      rw [htr] at hpost
      simpa using hpost
  | returns y =>
      rw [htr] at hpost
      have hy : P y.1 ((pre ++ op :: post).set pre.length y.2) := by
        simpa using hpost
      dsimp only
      by_cases hfin : Operation.state y.2 = finished Op
      · rw [if_pos hfin]
        exact popFinished_induct (P := P y.1) (fun o r => h.pop y.1 o r) _ hy
      · rw [if_neg hfin]
        exact hy

/-- The walk over the operations preserves what each preserves. -/
theorem advanceOperationLoop_preserves {ts : List (Transition σ Op State)}
    {P Q : σ → List Op → Prop} (h : Preserves ts P Q) :
    ∀ (fuel : Nat) (s : σ) (ops : List Op) (n : Nat), P s ops →
      (advanceOperationLoop ts fuel s ops n).Post
        (fun y => P y.1 y.2) (fun y => Q y.1 y.2) := by
  intro fuel
  induction fuel with
  | zero => intro s ops n hP; exact hP
  | succ fuel ih =>
      intro s ops n hP
      rw [advanceOperationLoop]
      cases hfind : findOperation ops n with
      | none => exact hP
      | some i =>
          obtain ⟨next, hnum⟩ := h.numbered _ _ hP
          obtain ⟨pre, op, post, rfl, rfl, -⟩ := exists_of_findOperation hnum hfind
          simp only [getElem?_mid]
          by_cases hfin : Operation.state op = finished Op
          · rw [if_pos hfin]
            exact hP
          · rw [if_neg hfin]
            have hone := advanceOneOperation_preserves h hP
            cases hadv : advanceOneOperation ts s (pre ++ op :: post) pre.length op with
            | throws y =>
                rw [hadv] at hone
                exact hone
            | returns y =>
                rw [hadv] at hone
                dsimp only
                by_cases hflag : y.2.2 = true
                · rw [if_pos hflag]
                  exact ih _ _ _ hone
                · rw [if_neg hflag]
                  exact hone

/-- **Invariant rule, one operation.** -/
theorem advanceOperation_preserves {ts : List (Transition σ Op State)}
    {P Q : σ → List Op → Prop} (h : Preserves ts P Q) {s : σ} {ops : List Op}
    (n : Nat) (hP : P s ops) :
    (advanceOperation ts s ops n).Post (fun y => P y.1 y.2) (fun y => Q y.1 y.2) :=
  advanceOperationLoop_preserves h _ s ops n hP

/-- The walk over all operations preserves what each preserves. -/
theorem advanceAllOperationsLoop_preserves {ts : List (Transition σ Op State)}
    {P Q : σ → List Op → Prop} (h : Preserves ts P Q) :
    ∀ (fuel : Nat) (s : σ) (ops : List Op) (n : Nat), P s ops →
      (advanceAllOperationsLoop ts fuel s ops n).Post
        (fun y => P y.1 y.2) (fun y => Q y.1 y.2) := by
  intro fuel
  induction fuel with
  | zero => intro s ops n hP; exact hP
  | succ fuel ih =>
      intro s ops n hP
      rw [advanceAllOperationsLoop]
      cases hfind : findOperation ops n with
      | none => exact hP
      | some i =>
          obtain ⟨next, hnum⟩ := h.numbered _ _ hP
          obtain ⟨pre, op, post, rfl, rfl, -⟩ := exists_of_findOperation hnum hfind
          simp only [getElem?_mid]
          have hone := advanceOneOperation_preserves h hP
          cases hadv : advanceOneOperation ts s (pre ++ op :: post) pre.length op with
          | throws y =>
              rw [hadv] at hone
              exact hone
          | returns y =>
              rw [hadv] at hone
              exact ih _ _ _ hone

/-- **Invariant rule, every operation.** -/
theorem advanceAllOperations_preserves {ts : List (Transition σ Op State)}
    {P Q : σ → List Op → Prop} (h : Preserves ts P Q) {s : σ} {ops : List Op}
    (hP : P s ops) :
    (advanceAllOperations ts s ops).Post (fun y => P y.1 y.2) (fun y => Q y.1 y.2) := by
  cases ops with
  | nil => exact hP
  | cons front rest => exact advanceAllOperationsLoop_preserves h _ s _ _ hP

/-- In a queue whose finished operations come first, none is left after a step. -/
theorem advanceOneOperation_noFinished {ts : List (Transition σ Op State)}
    {P Q : σ → List Op → Prop} (h : Preserves ts P Q)
    (hfirst : ∀ s ops, P s ops → FinishedFirst ops) {s : σ}
    {pre post : List Op} {op : Op} (hP : P s (pre ++ op :: post))
    (hno : ∀ o ∈ pre ++ op :: post, Operation.state o ≠ finished Op)
    {y : σ × List Op × Bool}
    (hadv : advanceOneOperation ts s (pre ++ op :: post) pre.length op = .returns y) :
    ∀ o ∈ y.2.1, Operation.state o ≠ finished Op := by
  obtain ⟨next, hnum⟩ := h.numbered _ _ hP
  have hpost := transition_preserves h ts (fun _ ht => ht) s op hP
  rw [advanceOneOperation, prevOpState_mid hnum] at hadv
  cases htr : transition ts (lastState (finished Op) pre) (s, op) with
  | throws z => rw [htr] at hadv; exact nomatch hadv
  | returns z =>
      rw [htr] at hadv hpost
      have hset : (pre ++ op :: post).set pre.length z.2 = pre ++ z.2 :: post := by simp
      dsimp only at hadv
      rw [hset] at hadv
      by_cases hfin : Operation.state z.2 = finished Op
      · rw [if_pos hfin] at hadv
        obtain rfl := Outcome.returns.inj hadv
        exact noFinished_popFinished (hfirst _ _ hpost)
      · rw [if_neg hfin] at hadv
        obtain rfl := Outcome.returns.inj hadv
        intro o ho
        rcases List.mem_append.mp ho with ho | ho
        · exact hno o (by simp [ho])
        · rcases List.mem_cons.mp ho with rfl | ho
          · exact hfin
          · exact hno o (by simp [ho])

/-- After the walk no operation is finished. -/
theorem advanceOperation_noFinished {ts : List (Transition σ Op State)}
    {P Q : σ → List Op → Prop} (h : Preserves ts P Q)
    (hfirst : ∀ s ops, P s ops → FinishedFirst ops) {s : σ} {ops : List Op} {n : Nat}
    (hP : P s ops) (hno : ∀ o ∈ ops, Operation.state o ≠ finished Op)
    {y : σ × List Op} (hy : advanceOperation ts s ops n = .returns y) :
    ∀ o ∈ y.2, Operation.state o ≠ finished Op := by
  rw [advanceOperation] at hy
  generalize ops.length = fuel at hy
  induction fuel generalizing s ops n with
  | zero =>
      obtain rfl := Outcome.returns.inj hy
      exact hno
  | succ fuel ih =>
      rw [advanceOperationLoop] at hy
      cases hfind : findOperation ops n with
      | none =>
          rw [hfind] at hy
          obtain rfl := Outcome.returns.inj hy
          exact hno
      | some i =>
          obtain ⟨next, hnum⟩ := h.numbered _ _ hP
          obtain ⟨pre, op, post, rfl, rfl, -⟩ := exists_of_findOperation hnum hfind
          rw [hfind] at hy
          simp only [getElem?_mid] at hy
          rw [if_neg (hno op (by simp))] at hy
          have hone := advanceOneOperation_preserves h hP
          cases hadv : advanceOneOperation ts s (pre ++ op :: post) pre.length op with
          | throws z => rw [hadv] at hy; exact nomatch hy
          | returns z =>
              rw [hadv] at hy hone
              have hno' := advanceOneOperation_noFinished h hfirst hP hno hadv
              dsimp only at hy
              by_cases hflag : z.2.2 = true
              · rw [if_pos hflag] at hy
                exact ih hone hno' hy
              · rw [if_neg hflag] at hy
                obtain rfl := Outcome.returns.inj hy
                exact hno'

/-- After the walk no operation is finished. -/
theorem advanceAllOperations_noFinished {ts : List (Transition σ Op State)}
    {P Q : σ → List Op → Prop} (h : Preserves ts P Q)
    (hfirst : ∀ s ops, P s ops → FinishedFirst ops) {s : σ} {ops : List Op}
    (hP : P s ops) (hno : ∀ o ∈ ops, Operation.state o ≠ finished Op)
    {y : σ × List Op} (hy : advanceAllOperations ts s ops = .returns y) :
    ∀ o ∈ y.2, Operation.state o ≠ finished Op := by
  have hloop : ∀ (fuel : Nat) (s : σ) (ops : List Op) (n : Nat), P s ops →
      (∀ o ∈ ops, Operation.state o ≠ finished Op) →
      advanceAllOperationsLoop ts fuel s ops n = .returns y →
      ∀ o ∈ y.2, Operation.state o ≠ finished Op := by
    intro fuel
    induction fuel with
    | zero =>
        intro s ops n _ hno hy
        obtain rfl := Outcome.returns.inj hy
        exact hno
    | succ fuel ih =>
        intro s ops n hP hno hy
        rw [advanceAllOperationsLoop] at hy
        cases hfind : findOperation ops n with
        | none =>
            rw [hfind] at hy
            obtain rfl := Outcome.returns.inj hy
            exact hno
        | some i =>
            obtain ⟨next, hnum⟩ := h.numbered _ _ hP
            obtain ⟨pre, op, post, rfl, rfl, -⟩ := exists_of_findOperation hnum hfind
            rw [hfind] at hy
            simp only [getElem?_mid] at hy
            have hone := advanceOneOperation_preserves h hP
            cases hadv : advanceOneOperation ts s (pre ++ op :: post) pre.length op with
            | throws z => rw [hadv] at hy; exact nomatch hy
            | returns z =>
                rw [hadv] at hy hone
                exact ih _ _ _ hone
                  (advanceOneOperation_noFinished h hfirst hP hno hadv) hy
  cases ops with
  | nil =>
      obtain rfl := Outcome.returns.inj hy
      exact hno
  | cons front rest => exact hloop _ s _ _ hP hno hy

-- ── The frame rule ───────────────────────────────────────────────────────────

omit [Operation Op State] [DecidableEq State] in
/-- The actions keep what each keeps of the state around. -/
theorem runActions_keeps {I : σ → Prop} {as : List (σ → Op → Outcome (σ × Op))}
    (h : ∀ a ∈ as, ∀ s op, I s → I (a s op).state.1) :
    ∀ x : σ × Op, I x.1 → I (runActions as x).state.1 := by
  induction as with
  | nil => intro x hx; exact hx
  | cons a rest ih =>
      intro x hx
      have ha := h a (by simp) x.1 x.2 hx
      rw [runActions]
      cases hax : a x.1 x.2 with
      | throws y => rw [hax] at ha; exact ha
      | returns y =>
          rw [hax] at ha
          exact ih (fun b hb => h b (by simp [hb])) y ha

/-- A property of the subject that every action keeps. -/
def Keeps (ts : List (Transition σ Op State)) (I : σ → Prop) : Prop :=
  ∀ t ∈ ts, ∀ a ∈ t.actions, ∀ s op, I s → I (a s op).state.1

/-- A property that the actions keep of the transitions that can fire at all. -/
def KeepsLive (ts : List (Transition σ Op State)) (I : σ → Prop) : Prop :=
  ∀ t ∈ ts, (∃ op prev, t.cond op prev = true) → ∀ a ∈ t.actions, ∀ s op, I s → I (a s op).state.1

omit [Operation Op State] [DecidableEq State] in
/-- What every action keeps, those of live operations keep. -/
theorem Keeps.live {ts : List (Transition σ Op State)} {I : σ → Prop} (h : Keeps ts I) :
    KeepsLive ts I :=
  fun t ht _ => h t ht

/-- The attempts keep what each keeps of the state around. -/
theorem transition_keeps {I : σ → Prop} :
    ∀ (ts : List (Transition σ Op State)) (prev : State), KeepsLive ts I →
    ∀ x : σ × Op, I x.1 → I (transition ts prev x).state.1 := by
  intro ts prev
  induction ts with
  | nil => intro _ x hx; exact hx
  | cons t rest ih =>
      intro h x hx
      have ih' := ih (fun t' ht' => h t' (by simp [ht']))
      rw [transition, attemptTransition]
      by_cases hen : Operation.state x.2 = t.source ∧ t.cond x.2 prev = true
      · rw [if_pos hen]
        have hact := runActions_keeps (h t (by simp) ⟨_, _, hen.2⟩) x hx
        cases hrun : runActions t.actions x with
        | throws y => rw [hrun] at hact; exact hact
        | returns y =>
            rw [hrun] at hact
            exact ih' _ hact
      · rw [if_neg hen]
        exact ih' x hx

/-- Advancing one operation keeps what its attempts keep. -/
theorem advanceOneOperation_keeps {ts : List (Transition σ Op State)} {I : σ → Prop}
    (h : KeepsLive ts I) {s : σ} {ops : List Op} {i : Nat} {op : Op} (hs : I s) :
    I (advanceOneOperation ts s ops i op).state.1 := by
  have htr := transition_keeps ts (prevOpState ops op) h (s, op) hs
  rw [advanceOneOperation]
  cases hrun : transition ts (prevOpState ops op) (s, op) with
  | throws y => rw [hrun] at htr; exact htr
  | returns y =>
      rw [hrun] at htr
      dsimp only
      by_cases hfin : Operation.state y.2 = finished Op
      · rw [if_pos hfin]; exact htr
      · rw [if_neg hfin]; exact htr

/-- **Frame rule, one operation and those behind it.** -/
theorem advanceOperation_keeps {ts : List (Transition σ Op State)} {I : σ → Prop}
    (h : KeepsLive ts I) {s : σ} {ops : List Op} {n : Nat} (hs : I s) :
    I (advanceOperation ts s ops n).state.1 := by
  have hloop : ∀ (fuel : Nat) (s : σ) (ops : List Op) (n : Nat), I s →
      I (advanceOperationLoop ts fuel s ops n).state.1 := by
    intro fuel
    induction fuel with
    | zero => intro s ops n hs; exact hs
    | succ fuel ih =>
        intro s ops n hs
        rw [advanceOperationLoop]
        cases findOperation ops n with
        | none => exact hs
        | some i =>
            dsimp only
            cases ops[i]? with
            | none => exact hs
            | some op =>
                dsimp only
                by_cases hfin : Operation.state op = finished Op
                · rw [if_pos hfin]
                  exact hs
                · rw [if_neg hfin]
                  have hone : I (advanceOneOperation ts s ops i op).state.1 :=
                    advanceOneOperation_keeps h hs
                  cases hadv : advanceOneOperation ts s ops i op with
                  | throws y => rw [hadv] at hone; exact hone
                  | returns y =>
                      rw [hadv] at hone
                      dsimp only
                      by_cases hflag : y.2.2 = true
                      · rw [if_pos hflag]
                        exact ih _ _ _ hone
                      · rw [if_neg hflag]
                        exact hone
  exact hloop _ s ops n hs

/-- **Frame rule, every operation.** -/
theorem advanceAllOperations_keeps {ts : List (Transition σ Op State)} {I : σ → Prop}
    (h : KeepsLive ts I) {s : σ} {ops : List Op} (hs : I s) :
    I (advanceAllOperations ts s ops).state.1 := by
  have hloop : ∀ (fuel : Nat) (s : σ) (ops : List Op) (n : Nat), I s →
      I (advanceAllOperationsLoop ts fuel s ops n).state.1 := by
    intro fuel
    induction fuel with
    | zero => intro s ops n hs; exact hs
    | succ fuel ih =>
        intro s ops n hs
        rw [advanceAllOperationsLoop]
        cases findOperation ops n with
        | none => exact hs
        | some i =>
            dsimp only
            cases ops[i]? with
            | none => exact hs
            | some op =>
                dsimp only
                have hone : I (advanceOneOperation ts s ops i op).state.1 :=
                  advanceOneOperation_keeps h hs
                cases hadv : advanceOneOperation ts s ops i op with
                | throws y => rw [hadv] at hone; exact hone
                | returns y =>
                    rw [hadv] at hone
                    exact ih _ _ _ hone
  cases ops with
  | nil => exact hs
  | cons front rest => exact hloop _ s _ _ hs

-- ── The progress rule ────────────────────────────────────────────────────────

/-- Some transition could fire on this operation, behind state `prev`. -/
def Enabled (ts : List (Transition σ Op State)) (prev : State) (op : Op) : Prop :=
  ∃ t ∈ ts, Operation.state op = t.source ∧ t.cond op prev = true

/-- No operation of the queue has an enabled transition. -/
def Stable (ts : List (Transition σ Op State)) (ops : List Op) : Prop :=
  Chained (fun prev op => ¬ Enabled ts prev op) (finished Op) ops

/-- The list points forward: no transition leads to the source of an earlier one
    or of itself, none leaves the finished state, and actions keep the number. -/
structure Forward (ts : List (Transition σ Op State)) : Prop where
  later : ts.Pairwise (fun a b => a.source ≠ b.target)
  moves : ∀ t ∈ ts, t.source ≠ t.target
  notFinished : ∀ t ∈ ts, t.source ≠ finished Op
  keepsNumber : ∀ t ∈ ts, ∀ a ∈ t.actions, ∀ s op,
    sequenceNumber (a s op).state.2 = sequenceNumber op

omit [DecidableEq State] in
/-- The actions leave the number of the operation. -/
theorem runActions_number {as : List (σ → Op → Outcome (σ × Op))}
    (h : ∀ a ∈ as, ∀ s op, sequenceNumber (a s op).state.2 = sequenceNumber op) :
    ∀ x : σ × Op, sequenceNumber (runActions as x).state.2 = sequenceNumber x.2 := by
  induction as with
  | nil => intro x; rfl
  | cons a rest ih =>
      intro x
      have ha := h a (by simp) x.1 x.2
      rw [runActions]
      cases hax : a x.1 x.2 with
      | throws y => rw [hax] at ha; exact ha
      | returns y =>
          rw [hax] at ha
          rw [Outcome.bind_returns, ih (fun b hb => h b (by simp [hb])) y]
          exact ha

/-- The attempts leave the number of the operation. -/
theorem transition_number {ts : List (Transition σ Op State)}
    (h : ∀ t ∈ ts, ∀ a ∈ t.actions, ∀ s op,
      sequenceNumber (a s op).state.2 = sequenceNumber op)
    {prev : State} :
    ∀ x y : σ × Op, transition ts prev x = .returns y →
      sequenceNumber y.2 = sequenceNumber x.2 := by
  induction ts with
  | nil =>
      intro x y hxy
      obtain rfl : x = y := Outcome.returns.inj hxy
      rfl
  | cons t rest ih =>
      intro x y hxy
      rw [transition, attemptTransition] at hxy
      have ih' := ih (fun t' ht' => h t' (by simp [ht']))
      by_cases hen : Operation.state x.2 = t.source ∧ t.cond x.2 prev = true
      · rw [if_pos hen] at hxy
        have hact := runActions_number (h t (by simp)) x
        cases hrun : runActions t.actions x with
        | throws z => rw [hrun] at hxy; exact nomatch hxy
        | returns z =>
            rw [hrun] at hxy hact
            rw [Outcome.bind_returns, Outcome.bind_returns] at hxy
            rw [ih' _ _ hxy, Operation.sequenceNumber_withState]
            exact hact
      · rw [if_neg hen] at hxy
        exact ih' _ _ hxy

/-- **One pass is enough.**  Behind a fixed predecessor, a forward list leaves no
    transition enabled. -/
theorem transition_settles {prev : State} :
    ∀ (rest done : List (Transition σ Op State)),
      (done ++ rest).Pairwise (fun a b => a.source ≠ b.target) →
      (∀ t ∈ rest, t.source ≠ t.target) →
    ∀ x y : σ × Op, ¬ Enabled done prev x.2 →
      transition rest prev x = .returns y → ¬ Enabled (done ++ rest) prev y.2 := by
  intro rest
  induction rest with
  | nil =>
      intro done _ _ x y hx hxy
      obtain rfl : x = y := Outcome.returns.inj hxy
      rwa [List.append_nil]
  | cons t rest ih =>
      intro done hlater hmoves x y hx hxy
      have hassoc : done ++ t :: rest = (done ++ [t]) ++ rest := by simp
      rw [hassoc] at hlater ⊢
      have ih' := ih (done ++ [t]) hlater (fun t' ht' => hmoves t' (by simp [ht']))
      rw [transition, attemptTransition] at hxy
      by_cases hen : Operation.state x.2 = t.source ∧ t.cond x.2 prev = true
      · rw [if_pos hen] at hxy
        cases hrun : runActions t.actions x with
        | throws z => rw [hrun] at hxy; exact nomatch hxy
        | returns z =>
            rw [hrun] at hxy
            rw [Outcome.bind_returns, Outcome.bind_returns] at hxy
            refine ih' _ _ ?_ hxy
            -- the new state is the target of `t`, the source of nothing before
            rintro ⟨t', ht', hsrc, -⟩
            rw [Operation.state_withState] at hsrc
            rcases List.mem_append.mp ht' with hdone | ht
            · have hpair := (List.pairwise_append.mp (List.pairwise_append.mp hlater).1).2.2
              exact hpair t' hdone t (by simp) hsrc.symm
            · obtain rfl := List.mem_singleton.mp ht
              exact hmoves t' (by simp) hsrc.symm
      · rw [if_neg hen] at hxy
        refine ih' _ _ ?_ hxy
        rintro ⟨t', ht', hsrc⟩
        rcases List.mem_append.mp ht' with hdone | ht
        · exact hx ⟨t', hdone, hsrc⟩
        · obtain rfl := List.mem_singleton.mp ht
          exact hen hsrc

/-- A pass over an operation with nothing enabled does nothing. -/
theorem transition_of_not_enabled {ts : List (Transition σ Op State)} {prev : State}
    {x : σ × Op} (h : ¬ Enabled ts prev x.2) : transition ts prev x = .returns x := by
  induction ts with
  | nil => rfl
  | cons t rest ih =>
      rw [transition, attemptTransition, if_neg (fun hen => h ⟨t, by simp, hen⟩)]
      exact ih (fun ⟨t', ht', hen⟩ => h ⟨t', by simp [ht'], hen⟩)

/-- What one step of a walk did, when it returned. -/
theorem advanceOneOperation_returns {ts : List (Transition σ Op State)}
    (hf : Forward ts) {s : σ} {pre post : List Op} {op : Op} {next : Nat}
    (hnum : Numbered next (pre ++ op :: post)) {y : σ × List Op × Bool}
    (hadv : advanceOneOperation ts s (pre ++ op :: post) pre.length op = .returns y) :
    ∃ op', sequenceNumber op' = sequenceNumber op
      ∧ ¬ Enabled ts (lastState (finished Op) pre) op'
      ∧ (y.2.1 = pre ++ op' :: post ∨ y.2.1 = popFinished (pre ++ op' :: post))
      ∧ (y.2.2 = true ∨ Operation.state op' = Operation.state op) := by
  rw [advanceOneOperation, prevOpState_mid hnum] at hadv
  cases htr : transition ts (lastState (finished Op) pre) (s, op) with
  | throws z => rw [htr] at hadv; exact nomatch hadv
  | returns z =>
      rw [htr] at hadv
      refine ⟨z.2, transition_number hf.keepsNumber _ _ htr, ?_, ?_⟩
      · refine transition_settles ts [] hf.later hf.moves (s, op) z ?_ htr
        rintro ⟨t, ht, -⟩
        exact nomatch ht
      · have hset : (pre ++ op :: post).set pre.length z.2 = pre ++ z.2 :: post := by
          simp
        dsimp only at hadv
        rw [hset] at hadv
        have hflag : decide (Operation.state z.2 ≠ Operation.state op) = true
            ∨ Operation.state z.2 = Operation.state op := by
          by_cases hst : Operation.state z.2 = Operation.state op
          · exact Or.inr hst
          · exact Or.inl (by simpa using hst)
        by_cases hfin : Operation.state z.2 = finished Op
        · rw [if_pos hfin] at hadv
          obtain rfl := Outcome.returns.inj hadv
          exact ⟨Or.inr rfl, hflag⟩
        · rw [if_neg hfin] at hadv
          obtain rfl := Outcome.returns.inj hadv
          exact ⟨Or.inl rfl, hflag⟩

/-- A step leaves a numbered queue whose operations before the current one are as
    settled as they were, the current one settled, and the one after it exempt if
    the current one moved. -/
theorem advanceOneOperation_chained {ts : List (Transition σ Op State)}
    (hf : Forward ts) {s : σ} {pre post : List Op} {op : Op} {next : Nat}
    (hnum : Numbered next (pre ++ op :: post))
    {X Y : Nat → Prop}
    (hpre : ∀ n, n < sequenceNumber op → X n → Y n)
    (hpost : ∀ n, sequenceNumber op + 1 < n → X n → Y n)
    {y : σ × List Op × Bool}
    (hnext : Y (sequenceNumber op + 1)
      ∨ (y.2.2 ≠ true ∧ (X (sequenceNumber op + 1) →
          Y (sequenceNumber op + 1))))
    (hch : Chained (fun p o => X (sequenceNumber o) ∨ ¬ Enabled ts p o)
      (finished Op) (pre ++ op :: post))
    (hadv : advanceOneOperation ts s (pre ++ op :: post) pre.length op = .returns y) :
    Numbered next y.2.1 ∧
    Chained (fun p o => Y (sequenceNumber o) ∨ ¬ Enabled ts p o)
      (finished Op) y.2.1 := by
  obtain ⟨op', hseq, hset, hops, hflag⟩ := advanceOneOperation_returns hf hnum hadv
  have hnum' : Numbered next (pre ++ op' :: post) := numbered_set hnum hseq
  obtain ⟨hc1, hc2⟩ := chained_append.mp hch
  have hch' : Chained (fun p o => Y (sequenceNumber o) ∨ ¬ Enabled ts p o)
      (finished Op) (pre ++ op' :: post) := by
    refine chained_append.mpr ⟨?_, Or.inr hset, ?_⟩
    · refine chained_imp (fun q o ho h => ?_) hc1
      rcases h with hex | hst
      · refine Or.inl (hpre _ ?_ hex)
        have h1 := numbered_pre o hnum ho
        have h2 := numbered_mid hnum
        rw [List.length_cons] at h1
        omega
      · exact Or.inr hst
    · cases post with
      | nil => trivial
      | cons op2 post2 =>
          have hnum2 := (numbered_append hnum).2
          have h1 := numbered_mid hnum
          have h2 := hnum2.1
          rw [List.length_cons] at h1
          have hsucc : sequenceNumber op2 = sequenceNumber op + 1 := by omega
          have hrest := hc2.2
          refine ⟨?_, chained_imp (fun q o ho h => ?_) hrest.2⟩
          · show Y (sequenceNumber op2) ∨ ¬ Enabled ts (Operation.state op') op2
            rw [hsucc]
            rcases hnext with hex | ⟨hno, hmono⟩
            · exact Or.inl hex
            · rcases hflag with htrue | hsame
              · exact absurd htrue hno
              · rw [hsame]
                rcases hrest.1 with hex | hst
                · rw [hsucc] at hex
                  exact Or.inl (hmono hex)
                · exact Or.inr hst
          · rcases h with hex | hst
            · refine Or.inl (hpost _ ?_ hex)
              have := numbered_front hnum2 ho
              omega
            · exact Or.inr hst
  rcases hops with heq | heq
  · rw [heq]
    exact ⟨hnum', hch'⟩
  · have hpopped : Numbered next (popFinished (pre ++ op' :: post)) :=
      popFinished_induct (P := Numbered next) (fun _ _ h _ => h.2) _ hnum'
    rw [heq]
    exact ⟨hpopped, chained_popFinished hch'⟩

/-- After the walk no operation can advance, if at most the one where it starts could. -/
theorem advanceOperationLoop_stable {ts : List (Transition σ Op State)}
    (hf : Forward ts) {next : Nat} :
    ∀ (fuel : Nat) (s : σ) (ops : List Op) (n : Nat),
      Numbered next ops → next ≤ n + fuel →
      Chained (fun p o => sequenceNumber o = n ∨ ¬ Enabled ts p o) (finished Op) ops →
      ∀ y, advanceOperationLoop ts fuel s ops n = .returns y → Stable ts y.2 := by
  intro fuel
  induction fuel with
  | zero =>
      intro s ops n hnum hle hch y hy
      obtain rfl := Outcome.returns.inj hy
      refine chained_imp (fun q o ho h => h.resolve_left ?_) hch
      obtain ⟨a, b, rfl⟩ := List.append_of_mem ho
      have := numbered_mid hnum
      omega
  | succ fuel ih =>
      intro s ops n hnum hle hch y hy
      rw [advanceOperationLoop] at hy
      cases hfind : findOperation ops n with
      | none =>
          rw [hfind] at hy
          obtain rfl := Outcome.returns.inj hy
          refine chained_imp (fun q o ho h => h.resolve_left ?_) hch
          rintro rfl
          obtain ⟨a, b, rfl⟩ := List.append_of_mem ho
          rw [findOperation_mid hnum] at hfind
          exact nomatch hfind
      | some i =>
          obtain ⟨pre, op, post, rfl, rfl, hseq⟩ := exists_of_findOperation hnum hfind
          have hn : sequenceNumber op = n := by omega
          rw [hfind] at hy
          simp only [getElem?_mid] at hy
          by_cases hfin : Operation.state op = finished Op
          · rw [if_pos hfin] at hy
            obtain rfl := Outcome.returns.inj hy
            refine chained_imp (fun q o ho h => ?_) hch
            rcases h with hex | hst
            · rcases List.mem_append.mp ho with hpre | hmid
              · exact absurd (hex.trans hn.symm) (numbered_ne hnum (Or.inl hpre))
              · rcases List.mem_cons.mp hmid with rfl | hpost
                · rintro ⟨t, ht, hsrc, -⟩
                  exact hf.notFinished t ht (hsrc.symm.trans hfin)
                · exact absurd (hex.trans hn.symm) (numbered_ne hnum (Or.inr hpost))
            · exact hst
          · rw [if_neg hfin] at hy
            cases hadv : advanceOneOperation ts s (pre ++ op :: post) pre.length op with
            | throws z => rw [hadv] at hy; exact nomatch hy
            | returns z =>
                rw [hadv] at hy
                dsimp only at hy
                by_cases hflag : z.2.2 = true
                · rw [if_pos hflag] at hy
                  -- the operation moved: only its successor may be unsettled now
                  obtain ⟨hnum', hch'⟩ := advanceOneOperation_chained hf hnum
                    (X := fun k => k = n) (Y := fun k => k = n + 1)
                    (by intro k hk hex; omega) (by intro k hk hex; omega)
                    (Or.inl (by rw [hn])) hch hadv
                  exact ih _ _ _ hnum' (by omega) hch' y hy
                · rw [if_neg hflag] at hy
                  obtain rfl := Outcome.returns.inj hy
                  obtain ⟨-, hch'⟩ := advanceOneOperation_chained hf hnum
                    (X := fun k => k = n) (Y := fun _ => False)
                    (by intro k hk hex; omega) (by intro k hk hex; omega)
                    (Or.inr ⟨hflag, by intro hex; omega⟩) hch hadv
                  exact chained_imp (fun q o _ h => h.resolve_left id) hch'

/-- **Progress rule, one operation.**  If only operation `n` may have an enabled
    transition, advancing it leaves none enabled anywhere. -/
theorem advanceOperation_stable {ts : List (Transition σ Op State)}
    (hf : Forward ts) {s : σ} {ops : List Op} {n next : Nat}
    (hnum : Numbered next ops) (hn : next ≤ n + ops.length)
    (hch : Chained (fun p o => sequenceNumber o = n ∨ ¬ Enabled ts p o)
      (finished Op) ops)
    {y : σ × List Op} (hy : advanceOperation ts s ops n = .returns y) :
    Stable ts y.2 :=
  advanceOperationLoop_stable hf _ s ops n hnum hn hch y hy

/-- An unfinished operation is never popped. -/
theorem mem_popFinished {ops : List Op} {op : Op} (hop : op ∈ ops)
    (hst : Operation.state op ≠ finished Op) : op ∈ popFinished ops := by
  induction ops with
  | nil => exact hop
  | cons hd rest ih =>
      rw [popFinished, List.dropWhile_cons]
      by_cases hfin : Operation.state hd = finished Op
      · rw [if_pos (by simpa using hfin)]
        rcases List.mem_cons.mp hop with rfl | hmem
        · exact absurd hfin hst
        · exact ih hmem
      · rw [if_neg (by simpa using hfin)]
        exact hop

/-- What stands behind an unfinished operation is never popped. -/
theorem mem_popFinished_behind {pre post : List Op} {op o : Op}
    (hop : op ∈ pre) (hst : Operation.state op ≠ finished Op) (ho : o ∈ post) :
    o ∈ popFinished (pre ++ post) := by
  induction pre with
  | nil => exact nomatch hop
  | cons hd rest ih =>
      rw [List.cons_append, popFinished, List.dropWhile_cons]
      by_cases hfin : Operation.state hd = finished Op
      · rw [if_pos (by simpa using hfin)]
        rcases List.mem_cons.mp hop with rfl | hmem
        · exact absurd hfin hst
        · exact ih hmem
      · rw [if_neg (by simpa using hfin)]
        exact List.mem_cons_of_mem _ (List.mem_append_right _ ho)

/-- Nothing cuts short a walk that has come to `n`: an unfinished operation stands in
    front of it, so that nothing is popped, or the finished operations from `n` on
    are the last ones. -/
def Unhindered (n : Nat) (ops : List Op) : Prop :=
  (∃ o ∈ ops, sequenceNumber o < n ∧ Operation.state o ≠ finished Op) ∨
  (∀ o ∈ ops, ∀ o' ∈ ops, n ≤ sequenceNumber o → sequenceNumber o ≤ sequenceNumber o' →
    Operation.state o = finished Op → Operation.state o' = finished Op)

/-- One step of a walk that nothing cuts short: the next operation is there, or all
    the remaining ones are finished. -/
theorem unhindered_step {pre post : List Op} {op op' : Op} {ops : List Op} {next : Nat}
    (hnum : Numbered next (pre ++ op :: post))
    (hseq : sequenceNumber op' = sequenceNumber op)
    (hops : ops = pre ++ op' :: post ∨ ops = popFinished (pre ++ op' :: post))
    (h : Unhindered (sequenceNumber op) (pre ++ op :: post)) :
    Unhindered (sequenceNumber op + 1) ops ∧
    ((∃ o ∈ ops, sequenceNumber o = sequenceNumber op + 1) ∨
      ∀ o ∈ ops, sequenceNumber op + 1 ≤ sequenceNumber o →
        Operation.state o = finished Op) := by
  have hlater : ∀ o ∈ ops, sequenceNumber op + 1 ≤ sequenceNumber o → o ∈ post := by
    intro o ho hle
    have hin : o ∈ pre ++ op' :: post := by
      rcases hops with heq | heq
      · exact heq ▸ ho
      · exact mem_of_mem_popFinished (heq ▸ ho)
    rcases List.mem_append.mp hin with hpre | hmid
    · have h1 := numbered_pre o hnum hpre
      have h2 := numbered_mid hnum
      rw [List.length_cons] at h1
      omega
    · rcases List.mem_cons.mp hmid with rfl | hpost
      · omega
      · exact hpost
  have hsucc : ∀ o rest, post = o :: rest → sequenceNumber o = sequenceNumber op + 1 := by
    rintro o rest rfl
    have h1 := numbered_mid hnum
    have h2 := (numbered_append hnum).2.1
    rw [List.length_cons] at h1
    omega
  rcases h with ⟨b, hb, hlt, hst⟩ | hlast
  · have hbpre : b ∈ pre := by
      rcases List.mem_append.mp hb with hpre | hmid
      · exact hpre
      · rcases List.mem_cons.mp hmid with rfl | hpost
        · omega
        · have := numbered_post hnum hpost
          omega
    refine ⟨Or.inl ⟨b, ?_, by omega, hst⟩, ?_⟩
    · rcases hops with heq | heq
      · rw [heq]; exact List.mem_append_left _ hbpre
      · rw [heq]; exact mem_popFinished (List.mem_append_left _ hbpre) hst
    · cases post with
      | nil => exact Or.inr (fun o ho hle => (nomatch hlater o ho hle))
      | cons op2 post2 =>
          refine Or.inl ⟨op2, ?_, hsucc op2 post2 rfl⟩
          rcases hops with heq | heq
          · rw [heq]; simp
          · rw [heq]; exact mem_popFinished_behind hbpre hst (by simp)
  · have hin : ∀ o ∈ post, o ∈ pre ++ op :: post := by
      intro o ho
      exact List.mem_append_right _ (List.mem_cons_of_mem _ ho)
    have hafter : ∀ o ∈ post, sequenceNumber op ≤ sequenceNumber o :=
      fun o ho => Nat.le_of_lt (numbered_post hnum ho)
    refine ⟨Or.inr ?_, ?_⟩
    · intro o ho o' ho' hle hle' hfin
      have hpo := hlater o ho hle
      have hpo' := hlater o' ho' (Nat.le_trans hle hle')
      exact hlast o (hin o hpo) o' (hin o' hpo') (hafter o hpo) hle' hfin
    · cases post with
      | nil => exact Or.inr (fun o ho hle => (nomatch hlater o ho hle))
      | cons op2 post2 =>
          by_cases hfin : Operation.state op2 = finished Op
          · refine Or.inr (fun o ho hle => ?_)
            have hpo := hlater o ho hle
            have h2 := hsucc op2 post2 rfl
            exact hlast op2 (hin op2 (by simp)) o (hin o hpo) (by omega) (by omega) hfin
          · refine Or.inl ⟨op2, ?_, hsucc op2 post2 rfl⟩
            rcases hops with heq | heq
            · rw [heq]; simp
            · rw [heq]; exact mem_popFinished (by simp) hfin

/-- After the walk over all operations none can advance. -/
theorem advanceAllOperationsLoop_stable {ts : List (Transition σ Op State)}
    (hf : Forward ts) {next : Nat} :
    ∀ (fuel : Nat) (s : σ) (ops : List Op) (n : Nat),
      Numbered next ops → next ≤ n + fuel → Unhindered n ops →
      ((∃ o ∈ ops, sequenceNumber o = n) ∨
        ∀ o ∈ ops, n ≤ sequenceNumber o → Operation.state o = finished Op) →
      Chained (fun p o => n ≤ sequenceNumber o ∨ ¬ Enabled ts p o) (finished Op) ops →
      ∀ y, advanceAllOperationsLoop ts fuel s ops n = .returns y → Stable ts y.2 := by
  intro fuel
  induction fuel with
  | zero =>
      intro s ops n hnum hle _ _ hch y hy
      obtain rfl := Outcome.returns.inj hy
      refine chained_imp (fun q o ho h => h.resolve_left ?_) hch
      obtain ⟨a, b, rfl⟩ := List.append_of_mem ho
      have := numbered_mid hnum
      omega
  | succ fuel ih =>
      intro s ops n hnum hle hwalk hthere hch y hy
      rw [advanceAllOperationsLoop] at hy
      cases hfind : findOperation ops n with
      | none =>
          rw [hfind] at hy
          obtain rfl := Outcome.returns.inj hy
          rcases hthere with ⟨o', ho', rfl⟩ | hall
          · obtain ⟨a', b', rfl⟩ := List.append_of_mem ho'
            rw [findOperation_mid hnum] at hfind
            exact nomatch hfind
          · refine chained_imp (fun q o ho h => ?_) hch
            rcases h with hle' | hst
            · rintro ⟨t, ht, hsrc, -⟩
              exact hf.notFinished t ht (hsrc.symm.trans (hall o ho hle'))
            · exact hst
      | some i =>
          obtain ⟨pre, op, post, rfl, rfl, hseq⟩ := exists_of_findOperation hnum hfind
          obtain rfl : sequenceNumber op = n := by omega
          rw [hfind] at hy
          simp only [getElem?_mid] at hy
          cases hadv : advanceOneOperation ts s (pre ++ op :: post) pre.length op with
          | throws z => rw [hadv] at hy; exact nomatch hy
          | returns z =>
              rw [hadv] at hy
              obtain ⟨hnum', hch'⟩ := advanceOneOperation_chained hf hnum
                (X := fun k => sequenceNumber op ≤ k) (Y := fun k => sequenceNumber op + 1 ≤ k)
                (by intro k hk hex; omega) (by intro k hk hex; omega)
                (Or.inl (Nat.le_refl _)) hch hadv
              obtain ⟨op', hseq', -, hops, -⟩ := advanceOneOperation_returns hf hnum hadv
              obtain ⟨hwalk', hthere'⟩ := unhindered_step hnum hseq' hops hwalk
              exact ih _ _ _ hnum' (by omega) hwalk' hthere' hch' y hy

omit [DecidableEq State] in
/-- Before the walk every operation is still to be visited. -/
theorem chained_unvisited (ts : List (Transition σ Op State)) {next : Nat} {front : Op}
    {rest : List Op} (hnum : Numbered next (front :: rest)) :
    Chained (fun p o => sequenceNumber front ≤ sequenceNumber o ∨ ¬ Enabled ts p o)
      (finished Op) (front :: rest) := by
  have hall : ∀ (ops : List Op) (p : State),
      (∀ o ∈ ops, sequenceNumber front ≤ sequenceNumber o) →
      Chained (fun p o => sequenceNumber front ≤ sequenceNumber o ∨ ¬ Enabled ts p o) p ops := by
    intro ops
    induction ops with
    | nil => intro p _; trivial
    | cons o tl ih =>
        intro p hle
        exact ⟨Or.inl (hle o (by simp)), ih _ (fun o' ho' => hle o' (by simp [ho']))⟩
  refine hall _ _ (fun o ho => ?_)
  rcases List.mem_cons.mp ho with rfl | hmem
  · exact Nat.le_refl _
  · exact Nat.le_of_lt (numbered_front hnum hmem)

/-- **Progress rule, every operation.**  The walk stops at the first number that
    is gone from the deque: a finished operation further back that is popped
    together with one in front of it cuts it short.  So it needs the finished
    operations to be the last ones. -/
theorem advanceAllOperations_stable_of_last {ts : List (Transition σ Op State)}
    (hf : Forward ts) {s : σ} {ops : List Op} {next : Nat} (hnum : Numbered next ops)
    (hlast : ∀ o ∈ ops, ∀ o' ∈ ops, sequenceNumber o ≤ sequenceNumber o' →
      Operation.state o = finished Op → Operation.state o' = finished Op)
    {y : σ × List Op} (hy : advanceAllOperations ts s ops = .returns y) :
    Stable ts y.2 := by
  cases ops with
  | nil =>
      obtain rfl := Outcome.returns.inj hy
      trivial
  | cons front rest =>
      have hlen := hnum.1
      refine advanceAllOperationsLoop_stable hf _ s _ _ hnum ?_
        (Or.inr (fun o ho o' ho' _ => hlast o ho o' ho')) (Or.inl ⟨front, by simp, rfl⟩)
        (chained_unvisited ts hnum) y hy
      rw [List.length_cons]
      omega

/-- With no finished operation in the deque nothing can cut the walk short. -/
theorem advanceAllOperations_stable {ts : List (Transition σ Op State)}
    (hf : Forward ts) {s : σ} {ops : List Op} {next : Nat}
    (hnum : Numbered next ops)
    (hopen : ∀ o ∈ ops, Operation.state o ≠ finished Op)
    {y : σ × List Op} (hy : advanceAllOperations ts s ops = .returns y) :
    Stable ts y.2 :=
  advanceAllOperations_stable_of_last hf hnum
    (fun o ho _ _ _ hfin => absurd hfin (hopen o ho)) hy

/-- **Progress rule behind a front that stays.**  If the walk leaves the front
    unfinished, nothing is popped and every operation is visited. -/
theorem advanceAllOperations_stable_of_front {ts : List (Transition σ Op State)}
    (hf : Forward ts) {s : σ} {front : Op} {rest : List Op} {next : Nat}
    (hnum : Numbered next (front :: rest))
    (hstay : ∀ z, transition ts (finished Op) (s, front) = .returns z →
      Operation.state z.2 ≠ finished Op)
    {y : σ × List Op} (hy : advanceAllOperations ts s (front :: rest) = .returns y) :
    Stable ts y.2 := by
  have hlen := hnum.1
  have hmid : front :: rest = [] ++ front :: rest := rfl
  rw [advanceAllOperations, List.length_cons, advanceAllOperationsLoop, hmid,
    findOperation_mid (hmid ▸ hnum)] at hy
  simp only [getElem?_mid] at hy
  cases hadv : advanceOneOperation ts s ([] ++ front :: rest) ([] : List Op).length front with
  | throws z => rw [hadv] at hy; exact nomatch hy
  | returns z =>
      rw [hadv] at hy
      obtain ⟨hnum', hch'⟩ := advanceOneOperation_chained hf (hmid ▸ hnum)
        (X := fun k => sequenceNumber front ≤ k) (Y := fun k => sequenceNumber front + 1 ≤ k)
        (by intro k hk hex; omega) (by intro k hk hex; omega)
        (Or.inl (Nat.le_refl _)) (hmid ▸ chained_unvisited ts hnum) hadv
      -- the front stays, so the deque behind it is as it was
      have hkept : ∃ front', Operation.state front' ≠ finished Op
          ∧ sequenceNumber front' = sequenceNumber front ∧ z.2.1 = front' :: rest := by
        rw [advanceOneOperation, prevOpState_mid (hmid ▸ hnum), lastState] at hadv
        cases htr : transition ts (finished Op) (s, front) with
        | throws x => rw [htr] at hadv; exact nomatch hadv
        | returns x =>
            rw [htr] at hadv
            simp only [if_neg (hstay x htr)] at hadv
            obtain rfl := Outcome.returns.inj hadv
            exact ⟨x.2, hstay x htr, transition_number hf.keepsNumber _ _ htr, rfl⟩
      obtain ⟨front', hst, hseq, hops⟩ := hkept
      dsimp only at hy
      rw [hops] at hnum' hch' hy
      refine advanceAllOperationsLoop_stable hf _ z.1 _ _ hnum' (by omega)
        (Or.inl ⟨front', by simp, by omega, hst⟩) ?_ hch' y hy
      cases rest with
      | nil =>
          refine Or.inr (fun o ho hle => ?_)
          rw [List.mem_singleton.mp ho] at hle
          omega
      | cons op2 rest2 =>
          have h2 := hnum.2.1
          rw [List.length_cons] at hlen
          exact Or.inl ⟨op2, by simp, by omega⟩

-- ── Queues at rest ───────────────────────────────────────────────────────────

/-- A queue between two tasks: the invariant holds, nothing finished is left in
    it, and no transition is enabled. -/
structure AtRest (ts : List (Transition σ Op State)) (P : σ → List Op → Prop)
    (x : σ × List Op) : Prop where
  inv : P x.1 x.2
  unfinished : ∀ op ∈ x.2, Operation.state op ≠ finished Op
  stable : Stable ts x.2

omit [DecidableEq State] in
/-- The walk reaches the back of the sequence. -/
theorem numbered_reach {next : Nat} {ops : List Op} {op : Op}
    (h : Numbered next ops) (hop : op ∈ ops) :
    next ≤ sequenceNumber op + ops.length := by
  obtain ⟨a, b, rfl⟩ := List.append_of_mem hop
  have hmid := numbered_mid h
  rw [List.length_append, List.length_cons]
  omega

omit [DecidableEq State] in
/-- Writing flags of one operation can only enable that operation. -/
theorem stable_modify {ts : List (Transition σ Op State)} {ops : List Op} {n : Nat}
    {f : Op → Op} (hstate : ∀ op, Operation.state (f op) = Operation.state op)
    (hnumber : ∀ op, sequenceNumber (f op) = sequenceNumber op) (h : Stable ts ops) :
    Chained (fun p o => sequenceNumber o = n ∨ ¬ Enabled ts p o) (finished Op)
      (modifyOperation n f ops) := by
  rw [Stable] at h
  generalize finished Op = p at h ⊢
  induction ops generalizing p with
  | nil => trivial
  | cons op rest ih =>
      show Chained _ _ ((if sequenceNumber op = n then f op else op)
        :: modifyOperation n f rest)
      by_cases hn : sequenceNumber op = n
      · rw [if_pos hn]
        refine ⟨Or.inl ((hnumber op).trans hn), ?_⟩
        rw [hstate op]
        exact ih _ h.2
      · rw [if_neg hn]
        exact ⟨Or.inr h.1, ih _ h.2⟩

omit [DecidableEq State] in
/-- A new operation at the back is the only one that may be enabled. -/
theorem stable_push {ts : List (Transition σ Op State)} {ops : List Op} (op : Op)
    (h : Stable ts ops) :
    Chained (fun p o => sequenceNumber o = sequenceNumber op ∨ ¬ Enabled ts p o)
      (finished Op) (ops ++ [op]) :=
  chained_snoc (chained_imp (fun _ _ _ hst => Or.inr hst) h) (Or.inl rfl)

/-- **Rest rule, one operation.** -/
theorem advanceOperation_atRest {ts : List (Transition σ Op State)}
    {P Q : σ → List Op → Prop} (h : Preserves ts P Q) (hf : Forward ts)
    (hfirst : ∀ s ops, P s ops → FinishedFirst ops) {s : σ} {ops : List Op} {n : Nat}
    (hP : P s ops) (hno : ∀ o ∈ ops, Operation.state o ≠ finished Op)
    (hmem : ∃ o ∈ ops, sequenceNumber o = n)
    (hch : Chained (fun p o => sequenceNumber o = n ∨ ¬ Enabled ts p o)
      (finished Op) ops) :
    (advanceOperation ts s ops n).Post (AtRest ts P) (fun y => Q y.1 y.2) := by
  obtain ⟨next, hnum⟩ := h.numbered s ops hP
  obtain ⟨o, ho, rfl⟩ := hmem
  have hpost := advanceOperation_preserves h (sequenceNumber o) hP
  cases hadv : advanceOperation ts s ops (sequenceNumber o) with
  | throws y =>
      rw [hadv] at hpost
      exact hpost
  | returns y =>
      rw [hadv] at hpost
      exact ⟨hpost, advanceOperation_noFinished h hfirst hP hno hadv,
        advanceOperation_stable hf hnum (numbered_reach hnum ho) hch hadv⟩

/-- **Rest rule, one callback.**  A callback writes flags of one operation, leaves
    its state and number alone, and advances it. -/
theorem advanceOperation_modify_atRest {ts : List (Transition σ Op State)}
    {P Q : σ → List Op → Prop} (h : Preserves ts P Q) (hf : Forward ts)
    (hfirst : ∀ s ops, P s ops → FinishedFirst ops) {s s' : σ} {ops : List Op} {n : Nat}
    {f : Op → Op} (hrest : AtRest ts P (s, ops))
    (hstate : ∀ op, Operation.state (f op) = Operation.state op)
    (hnumber : ∀ op, sequenceNumber (f op) = sequenceNumber op)
    (hmem : ∃ o ∈ ops, sequenceNumber o = n)
    (hP : P s' (modifyOperation n f ops)) :
    (advanceOperation ts s' (modifyOperation n f ops) n).Post (AtRest ts P)
      (fun y => Q y.1 y.2) := by
  refine advanceOperation_atRest h hf hfirst hP ?_ ?_
    (stable_modify hstate hnumber hrest.stable)
  · intro o ho
    obtain ⟨o', ho', rfl⟩ := List.mem_map.mp ho
    by_cases hn : sequenceNumber o' = n
    · rw [if_pos hn, hstate]
      exact hrest.unfinished o' ho'
    · rw [if_neg hn]
      exact hrest.unfinished o' ho'
  · obtain ⟨o, ho, hn⟩ := hmem
    refine ⟨f o, List.mem_map.mpr ⟨o, ho, ?_⟩, (hnumber o).trans hn⟩
    rw [if_pos hn]

/-- **Rest rule, every operation.** -/
theorem advanceAllOperations_atRest {ts : List (Transition σ Op State)}
    {P Q : σ → List Op → Prop} (h : Preserves ts P Q) (hf : Forward ts)
    (hfirst : ∀ s ops, P s ops → FinishedFirst ops) {s : σ} {ops : List Op}
    (hP : P s ops) (hno : ∀ o ∈ ops, Operation.state o ≠ finished Op) :
    (advanceAllOperations ts s ops).Post (AtRest ts P) (fun y => Q y.1 y.2) := by
  obtain ⟨next, hnum⟩ := h.numbered s ops hP
  have hpost := advanceAllOperations_preserves h hP
  cases hadv : advanceAllOperations ts s ops with
  | throws y =>
      rw [hadv] at hpost
      exact hpost
  | returns y =>
      rw [hadv] at hpost
      exact ⟨hpost, advanceAllOperations_noFinished h hfirst hP hno hadv,
        advanceAllOperations_stable hf hnum hno hadv⟩

omit [DecidableEq State] in
/-- A rank that never increases along the queue and is largest when finished puts
    the finished operations first. -/
theorem finishedFirst_of_rank {R : State → Op → Prop} (rank : State → Nat)
    (hR : ∀ p op, R p op → rank (Operation.state op) ≤ rank p)
    (htop : ∀ st, rank (finished Op) ≤ rank st → st = finished Op) {ops : List Op}
    (h : Chained R (finished Op) ops) : FinishedFirst ops := by
  rintro pre op post rfl hfin x hx
  obtain ⟨h1, h2⟩ := chained_append.mp h
  have hop := hR _ _ h2.1
  have hpre := (chained_rank_pre hR pre _ h1).1 x hx
  rw [hfin] at hop
  exact htop _ (Nat.le_trans hop hpre)

end TpStateMachine
