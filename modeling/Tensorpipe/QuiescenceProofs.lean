import Mathlib.Data.List.TakeWhile
import Tensorpipe.OperationSideProofs

/-! # The operation queue at rest

    When a walk over the queue leaves nothing to do.  `advanceOperation` always does, if only
    the operation that it starts with could move.  `advanceAllOperations` stops at the first
    number that is gone: an operation that was finished in the middle is popped together with
    the one in front of it, and the operations behind are then not visited (`Uncut`).

    A visit tries every transition once, in order.  `logged` writes down which ones ran their
    actions; over a whole walk these are, for each operation, the transitions on its way from
    the state before to the state after, once each (`RunsOnce`). -/

namespace TpStateMachine

variable {σ Op State : Type} [Operation Op State] [DecidableEq State]

-- ── One step, exactly ────────────────────────────────────────────────────────

/-- The deque after a visit. -/
def visited (pre : List Op) (op' : Op) (post : List Op) : List Op :=
  if Operation.state op' = finished Op then popFinished (pre ++ op' :: post)
  else pre ++ op' :: post

/-- Advancing the operation between two parts of the sequence. -/
theorem advanceOneOperation_eq {ts : List (Transition σ Op State)} {s : σ}
    {pre post : List Op} {op : Op} {next : Nat} (hnum : Numbered next (pre ++ op :: post))
    {z : σ × Op} (htr : transition ts (lastState (finished Op) pre) (s, op) = .returns z) :
    advanceOneOperation ts s (pre ++ op :: post) pre.length op
      = .returns (z.1, visited pre z.2 post,
          decide (Operation.state z.2 ≠ Operation.state op)) := by
  have hset : (pre ++ op :: post).set pre.length z.2 = pre ++ z.2 :: post := by simp
  rw [advanceOneOperation, prevOpState_mid hnum, htr]
  dsimp only
  rw [hset, visited]
  split <;> rfl

/-- A visit that returns went through its transitions. -/
theorem transition_of_advance {ts : List (Transition σ Op State)} {s : σ}
    {pre post : List Op} {op : Op} {next : Nat} (hnum : Numbered next (pre ++ op :: post))
    {y : σ × List Op × Bool}
    (hadv : advanceOneOperation ts s (pre ++ op :: post) pre.length op = .returns y) :
    ∃ z, transition ts (lastState (finished Op) pre) (s, op) = .returns z ∧
      y = (z.1, visited pre z.2 post, decide (Operation.state z.2 ≠ Operation.state op)) := by
  cases htr : transition ts (lastState (finished Op) pre) (s, op) with
  | throws z =>
      rw [advanceOneOperation, prevOpState_mid hnum, htr] at hadv
      exact absurd hadv (by simp)
  | returns z =>
      rw [advanceOneOperation_eq hnum htr] at hadv
      exact ⟨z, rfl, (Outcome.returns.inj hadv).symm⟩

/-- After an operation was visited the others keep their numbers. -/
theorem numbered_visited {next : Nat} {pre post : List Op} {op op' : Op}
    (hnum : Numbered next (pre ++ op :: post)) (hseq : sequenceNumber op' = sequenceNumber op) :
    Numbered next (visited pre op' post) := by
  have hnum' : Numbered next (pre ++ op' :: post) := numbered_set hnum hseq
  unfold visited
  split
  · exact popFinished_induct (P := Numbered next) (fun _ _ h _ => h.2) _ hnum'
  · exact hnum'

/-- A visit of the front does not leave it finished. -/
theorem frontOpen_first (op' : Op) (post : List Op) : FrontOpen (visited [] op' post) := by
  intro front rest hfront
  unfold visited at hfront
  split at hfront
  · exact popFinished_front hfront
  · next hopen =>
    obtain ⟨rfl, -⟩ := List.cons.inj hfront
    exact hopen

-- ── The walks come to an end ─────────────────────────────────────────────────

omit [DecidableEq State] in
/-- A number beyond the last one is not found. -/
theorem findOperation_of_le {next : Nat} {ops : List Op} {n : Nat} (hnum : Numbered next ops)
    (hn : next ≤ n) : findOperation ops n = none := by
  cases hfind : findOperation ops n with
  | none => rfl
  | some i =>
      obtain ⟨pre, op, post, rfl, -, hseq⟩ := exists_of_findOperation hnum hfind
      have := numbered_mid hnum
      omega

/-- Beyond the last operation the walk does nothing. -/
theorem advanceOperationLoop_of_le {ts : List (Transition σ Op State)} {next : Nat}
    {ops : List Op} {n : Nat} (hnum : Numbered next ops) (hn : next ≤ n) (fuel : Nat) (s : σ) :
    advanceOperationLoop ts fuel s ops n = .returns (s, ops) := by
  cases fuel with
  | zero => rfl
  | succ fuel => rw [advanceOperationLoop, findOperation_of_le hnum hn]

/-- Beyond the last operation the walk does nothing. -/
theorem advanceAllOperationsLoop_of_le {ts : List (Transition σ Op State)} {next : Nat}
    {ops : List Op} {n : Nat} (hnum : Numbered next ops) (hn : next ≤ n) (fuel : Nat) (s : σ) :
    advanceAllOperationsLoop ts fuel s ops n = .returns (s, ops) := by
  cases fuel with
  | zero => rfl
  | succ fuel => rw [advanceAllOperationsLoop, findOperation_of_le hnum hn]

/-- **`advanceOperation` ends**: more fuel than there are numbers left changes nothing. -/
theorem advanceOperationLoop_ends {ts : List (Transition σ Op State)} (hf : Forward ts)
    {next : Nat} (k fuel : Nat) :
    ∀ (s : σ) (ops : List Op) (n : Nat), Numbered next ops → next ≤ n + fuel →
      advanceOperationLoop ts (fuel + k) s ops n = advanceOperationLoop ts fuel s ops n := by
  induction fuel with
  | zero =>
      intro s ops n hnum hn
      rw [Nat.add_zero] at hn
      rw [advanceOperationLoop_of_le hnum hn, advanceOperationLoop_of_le hnum hn]
  | succ fuel ih =>
      intro s ops n hnum hn
      rw [Nat.succ_add_eq_add_succ, Nat.add_succ, advanceOperationLoop, advanceOperationLoop]
      cases hfind : findOperation ops n with
      | none => rfl
      | some i =>
          obtain ⟨pre, op, post, rfl, rfl, hseq⟩ := exists_of_findOperation hnum hfind
          simp only [getElem?_mid]
          split
          · rfl
          · cases hadv : advanceOneOperation ts s (pre ++ op :: post) pre.length op with
            | throws y => rfl
            | returns y =>
                obtain ⟨z, htr, rfl⟩ := transition_of_advance hnum hadv
                have hseq' : sequenceNumber z.2 = sequenceNumber op :=
                  transition_number hf.keepsNumber _ _ htr
                dsimp only
                split
                · exact ih _ _ _ (numbered_visited hnum hseq') (by omega)
                · rfl

/-- **`advanceAllOperations` ends.** -/
theorem advanceAllOperationsLoop_ends {ts : List (Transition σ Op State)} (hf : Forward ts)
    {next : Nat} (k fuel : Nat) :
    ∀ (s : σ) (ops : List Op) (n : Nat), Numbered next ops → next ≤ n + fuel →
      advanceAllOperationsLoop ts (fuel + k) s ops n
        = advanceAllOperationsLoop ts fuel s ops n := by
  induction fuel with
  | zero =>
      intro s ops n hnum hn
      rw [Nat.add_zero] at hn
      rw [advanceAllOperationsLoop_of_le hnum hn, advanceAllOperationsLoop_of_le hnum hn]
  | succ fuel ih =>
      intro s ops n hnum hn
      rw [Nat.succ_add_eq_add_succ, Nat.add_succ, advanceAllOperationsLoop,
        advanceAllOperationsLoop]
      cases hfind : findOperation ops n with
      | none => rfl
      | some i =>
          obtain ⟨pre, op, post, rfl, rfl, hseq⟩ := exists_of_findOperation hnum hfind
          simp only [getElem?_mid]
          cases hadv : advanceOneOperation ts s (pre ++ op :: post) pre.length op with
          | throws y => rfl
          | returns y =>
              obtain ⟨z, htr, rfl⟩ := transition_of_advance hnum hadv
              have hseq' : sequenceNumber z.2 = sequenceNumber op :=
                transition_number hf.keepsNumber _ _ htr
              exact ih _ _ _ (numbered_visited hnum hseq') (by omega)

-- ── Numbers and the front ────────────────────────────────────────────────────

/-- What both walks keep. -/
structure Kept (next : Nat) (ops : List Op) : Prop where
  numbered : Numbered next ops
  front : FrontOpen ops

/-- Advancing one operation leaves the others in their states. -/
theorem advanceOneOperation_kept {ts : List (Transition σ Op State)} (hf : Forward ts)
    {next : Nat} (s : σ) (pre : List Op) (op : Op) (post : List Op) (y : σ × List Op × Bool)
    (h : Kept next (pre ++ op :: post))
    (hadv : advanceOneOperation ts s (pre ++ op :: post) pre.length op = .returns y) :
    Kept next y.2.1 := by
  have hfront := advanceOneOperation_frontOpen h.front hadv
  obtain ⟨z, htr, rfl⟩ := transition_of_advance h.numbered hadv
  have hseq : sequenceNumber z.2 = sequenceNumber op :=
    transition_number hf.keepsNumber _ _ htr
  exact ⟨numbered_visited h.numbered hseq, hfront⟩

/-- The first visit of `advanceAllOperations`. -/
theorem advanceAllOperations_first {ts : List (Transition σ Op State)} {s : σ} {front : Op}
    {rest : List Op} {next : Nat} (hnum : Numbered next (front :: rest)) {y : σ × List Op}
    (hy : advanceAllOperations ts s (front :: rest) = .returns y) :
    ∃ z, transition ts (finished Op) (s, front) = .returns z ∧
      advanceAllOperationsLoop ts rest.length z.1 (visited [] z.2 rest)
        (sequenceNumber front + 1) = .returns y := by
  have hmid : front :: rest = [] ++ front :: rest := rfl
  rw [advanceAllOperations, List.length_cons, advanceAllOperationsLoop, hmid,
    findOperation_mid (hmid ▸ hnum)] at hy
  simp only [getElem?_mid] at hy
  cases hadv : advanceOneOperation ts s ([] ++ front :: rest) ([] : List Op).length front with
  | throws z => rw [hadv] at hy; exact absurd hy (by simp)
  | returns z =>
      rw [hadv] at hy
      obtain ⟨z, htr, rfl⟩ := transition_of_advance (hmid ▸ hnum) hadv
      exact ⟨z, htr, hy⟩

/-- Whatever the front was, `advanceAllOperations` does not leave it finished. -/
theorem advanceAllOperations_kept {ts : List (Transition σ Op State)} (hf : Forward ts) {s : σ}
    {ops : List Op} {next : Nat} (hnum : Numbered next ops) {y : σ × List Op}
    (hy : advanceAllOperations ts s ops = .returns y) : Kept next y.2 := by
  cases ops with
  | nil =>
      obtain rfl := Outcome.returns.inj hy
      exact ⟨hnum, nofun⟩
  | cons front rest =>
      obtain ⟨z, htr, hrest⟩ := advanceAllOperations_first hnum hy
      have hseq : sequenceNumber z.2 = sequenceNumber front :=
        transition_number hf.keepsNumber _ _ htr
      have hnum' : Numbered next (visited [] z.2 rest) :=
        numbered_visited (show Numbered next ([] ++ front :: rest) from hnum) hseq
      exact advanceAllOperationsLoop_induct (fun _ _ h => ⟨next, h.numbered⟩)
        (advanceOneOperation_kept hf) _ _ _ _ ⟨hnum', frontOpen_first z.2 rest⟩ y hrest

-- ── Walks that are cut short ─────────────────────────────────────────────────

/-- The operations, tried once one after the other behind finished ones, all finish. -/
def Finishes (ts : List (Transition σ Op State)) : σ → List Op → Prop
  | _, [] => True
  | s, op :: rest => ∃ z, transition ts (finished Op) (s, op) = .returns z ∧
      Operation.state z.2 = finished Op ∧ Finishes ts z.1 rest

/-- Whenever the operations at the front all finish, up to one that was finished already, the
    operations behind that one have nothing to do. -/
def Uncut (ts : List (Transition σ Op State)) (s : σ) (ops : List Op) : Prop :=
  ∀ pre op post, ops = pre ++ op :: post → pre ≠ [] → Finishes ts s pre →
    Operation.state op = finished Op →
    Chained (fun prev op => ¬ Enabled ts prev op) (finished Op) post

omit [DecidableEq State] in
/-- A finished operation cannot advance. -/
theorem not_enabled_of_finished {ts : List (Transition σ Op State)} (hf : Forward ts)
    {prev : State} {op : Op} (hfin : Operation.state op = finished Op) :
    ¬ Enabled ts prev op := by
  rintro ⟨t, ht, hsrc, -⟩
  exact hf.notFinished t ht (hsrc.symm.trans hfin)

/-- What is popped had nothing to do. -/
theorem stable_popFinished_iff {ts : List (Transition σ Op State)} (hf : Forward ts)
    (ops : List Op) :
    Stable ts (popFinished ops) ↔
      Chained (fun prev op => ¬ Enabled ts prev op) (finished Op) ops := by
  induction ops with
  | nil => exact Iff.rfl
  | cons op rest ih =>
      rw [popFinished, List.dropWhile_cons]
      by_cases hfin : Operation.state op = finished Op
      · rw [if_pos (decide_eq_true hfin)]
        refine ih.trans ?_
        rw [Chained, hfin]
        exact ⟨fun h => ⟨not_enabled_of_finished hf hfin, h⟩, fun h => h.2⟩
      · rw [if_neg (fun h => hfin (of_decide_eq_true h))]
        exact Iff.rfl

/-- If the front does not finish, nothing is popped. -/
theorem uncut_of_open {ts : List (Transition σ Op State)} {s : σ} {op : Op} {rest : List Op}
    {z : σ × Op} (htr : transition ts (finished Op) (s, op) = .returns z)
    (hopen : Operation.state z.2 ≠ finished Op) : Uncut ts s (op :: rest) := by
  intro pre op' post hops hne hfinishes _
  cases pre with
  | nil => exact absurd rfl hne
  | cons hd tl =>
      obtain ⟨rfl, -⟩ := List.cons.inj hops
      obtain ⟨z', htr', hfin, -⟩ := hfinishes
      obtain rfl := Outcome.returns.inj (htr.symm.trans htr')
      exact absurd hfin hopen

/-- If the front finishes in front of a finished operation, the walk is cut there. -/
theorem uncut_cut_iff {ts : List (Transition σ Op State)} {s : σ} {op op2 : Op}
    {rest : List Op} {z : σ × Op} (htr : transition ts (finished Op) (s, op) = .returns z)
    (hfin : Operation.state z.2 = finished Op) (hfin2 : Operation.state op2 = finished Op) :
    Uncut ts s (op :: op2 :: rest) ↔
      Chained (fun prev op => ¬ Enabled ts prev op) (finished Op) rest := by
  constructor
  · intro h
    exact h [op] op2 rest rfl (List.cons_ne_nil _ _) ⟨z, htr, hfin, trivial⟩ hfin2
  · intro h pre op' post hops hne _ hfin'
    cases pre with
    | nil => exact absurd rfl hne
    | cons hd tl =>
        obtain ⟨-, htl⟩ := List.cons.inj hops
        cases tl with
        | nil =>
            obtain ⟨-, rfl⟩ := List.cons.inj htl
            exact h
        | cons hd2 tl2 =>
            obtain ⟨-, rfl⟩ := List.cons.inj htl
            have hbehind := (chained_append.mp h).2.2
            rw [hfin'] at hbehind
            exact hbehind

/-- If the front finishes in front of an unfinished operation, the walk goes on. -/
theorem uncut_next_iff {ts : List (Transition σ Op State)} {s : σ} {op op2 : Op}
    {rest : List Op} {z : σ × Op} (htr : transition ts (finished Op) (s, op) = .returns z)
    (hfin : Operation.state z.2 = finished Op) (hopen2 : Operation.state op2 ≠ finished Op) :
    Uncut ts s (op :: op2 :: rest) ↔ Uncut ts z.1 (op2 :: rest) := by
  constructor
  · intro h pre op' post hops hne hfinishes hfin'
    refine h (op :: pre) op' post ?_ (List.cons_ne_nil _ _) ⟨z, htr, hfin, hfinishes⟩ hfin'
    rw [hops, List.cons_append]
  · intro h pre op' post hops hne hfinishes hfin'
    cases pre with
    | nil => exact absurd rfl hne
    | cons hd tl =>
        obtain ⟨rfl, htl⟩ := List.cons.inj hops
        obtain ⟨z', htr', -, hfinishes⟩ := hfinishes
        obtain rfl := Outcome.returns.inj (htr.symm.trans htr')
        cases tl with
        | nil =>
            obtain ⟨rfl, -⟩ := List.cons.inj htl
            exact absurd hfin' hopen2
        | cons hd2 tl2 =>
            exact h (hd2 :: tl2) op' post htl (List.cons_ne_nil _ _) hfinishes hfin'

omit [DecidableEq State] in
/-- A number in front of the first one is not found. -/
theorem findOperation_of_gone {ops : List Op} {n : Nat}
    (h : ∀ o ∈ ops, n < sequenceNumber o) : findOperation ops n = none := by
  cases ops with
  | nil => rfl
  | cons front rest =>
      have hlt := h front List.mem_cons_self
      have hneg : (n : Int) - (sequenceNumber front : Int) < 0 := by omega
      exact if_pos (Or.inl hneg)

/-- A first operation that has finished is popped. -/
theorem visited_finished {op' : Op} (post : List Op) (hfin : Operation.state op' = finished Op) :
    visited [] op' post = popFinished post := by
  rw [visited, if_pos hfin, List.nil_append, popFinished, List.dropWhile_cons,
    if_pos (decide_eq_true hfin), popFinished]

/-- **Exactly when `advanceAllOperations` leaves nothing to do.**  By induction on the deque:
    while the front finishes and what follows was not finished, the walk goes on from there. -/
theorem advanceAllOperations_stable_iff {ts : List (Transition σ Op State)} (hf : Forward ts)
    {next : Nat} {ops : List Op} :
    ∀ {s : σ} {y : σ × List Op}, Numbered next ops →
      advanceAllOperations ts s ops = .returns y → (Stable ts y.2 ↔ Uncut ts s ops) := by
  induction ops with
  | nil =>
      intro s y _ hy
      obtain rfl := Outcome.returns.inj hy
      refine iff_of_true trivial ?_
      intro pre op post hops
      exact absurd hops.symm (List.append_ne_nil_of_right_ne_nil _ (List.cons_ne_nil _ _))
  | cons front rest ih =>
      intro s y hnum hy
      obtain ⟨z, htr, hrest⟩ := advanceAllOperations_first hnum hy
      by_cases hfin : Operation.state z.2 = finished Op
      · rw [visited_finished rest hfin] at hrest
        cases rest with
        | nil =>
            obtain rfl := Outcome.returns.inj hrest
            refine iff_of_true trivial ?_
            intro pre op post hops hne
            cases pre with
            | nil => exact absurd rfl hne
            | cons hd tl =>
                have htl := (List.cons.inj hops).2
                exact absurd htl.symm
                  (List.append_ne_nil_of_right_ne_nil _ (List.cons_ne_nil _ _))
        | cons op2 rest2 =>
            have hnext : sequenceNumber op2 = sequenceNumber front + 1 := by
              have h1 := hnum.1
              have h2 := hnum.2.1
              rw [List.length_cons] at h1
              omega
            rw [popFinished, List.dropWhile_cons] at hrest
            by_cases hfin2 : Operation.state op2 = finished Op
            · -- the next number is gone, so the walk stops in front of the others
              rw [if_pos (decide_eq_true hfin2), ← popFinished] at hrest
              have hgone : ∀ o ∈ popFinished rest2,
                  sequenceNumber front + 1 < sequenceNumber o := by
                intro o ho
                have := numbered_front hnum.2 (mem_of_mem_popFinished ho)
                omega
              rw [List.length_cons, advanceAllOperationsLoop,
                findOperation_of_gone hgone] at hrest
              obtain rfl := Outcome.returns.inj hrest
              exact (stable_popFinished_iff hf rest2).trans
                (uncut_cut_iff htr hfin hfin2).symm
            · rw [if_neg (fun h => hfin2 (of_decide_eq_true h)), ← hnext] at hrest
              exact (ih hnum.2 hrest).trans (uncut_next_iff htr hfin hfin2).symm
      · refine iff_of_true ?_ (uncut_of_open htr hfin)
        refine advanceAllOperations_stable_of_front hf hnum ?_ hy
        intro z' htr'
        obtain rfl := Outcome.returns.inj (htr.symm.trans htr')
        exact hfin

-- ── Which transitions ran their actions ──────────────────────────────────────

/-- An action of its own that writes down the operation and the transition. -/
def logAction (k : Nat) (s : σ × List (Nat × Nat)) (op : Op) :
    Outcome ((σ × List (Nat × Nat)) × Op) :=
  .returns ((s.1, s.2 ++ [(sequenceNumber op, k)]), op)

/-- An action, beside the log. -/
def besideLog (a : σ → Op → Outcome (σ × Op)) (s : σ × List (Nat × Nat)) (op : Op) :
    Outcome ((σ × List (Nat × Nat)) × Op) :=
  (a s.1 op).map fun y => ((y.1, s.2), y.2)

/-- An attempt which notes its place when it is made. -/
def Transition.logged (t : Transition σ Op State) (k : Nat) :
    Transition (σ × List (Nat × Nat)) Op State where
  source := t.source
  target := t.target
  cond := t.cond
  actions := logAction k :: t.actions.map besideLog

/-- The same transitions, numbered from `k` on; each writes down that its actions ran. -/
def loggedFrom : Nat → List (Transition σ Op State) →
    List (Transition (σ × List (Nat × Nat)) Op State)
  | _, [] => []
  | k, t :: ts => t.logged k :: loggedFrom (k + 1) ts

/-- The attempts, each noting its place when it is made. -/
def logged (ts : List (Transition σ Op State)) :
    List (Transition (σ × List (Nat × Nat)) Op State) := loggedFrom 0 ts

omit [Operation Op State] [DecidableEq State] in
/-- The actions do the same beside a log. -/
theorem runActions_besideLog {as : List (σ → Op → Outcome (σ × Op))} {log : List (Nat × Nat)} :
    ∀ {x y : σ × Op}, runActions as x = .returns y →
      runActions (as.map besideLog) ((x.1, log), x.2) = .returns ((y.1, log), y.2) := by
  induction as with
  | nil =>
      intro x y h
      obtain rfl := Outcome.returns.inj h
      rfl
  | cons a rest ih =>
      intro x y h
      rw [runActions] at h
      rw [List.map_cons, runActions, besideLog]
      cases ha : a x.1 x.2 with
      | throws z => rw [ha] at h; exact absurd h (by simp)
      | returns z =>
          rw [ha] at h
          exact ih h

/-- A transition that fires writes itself down and does what it did. -/
theorem attemptTransition_logged {t : Transition σ Op State} {prev : State}
    {log : List (Nat × Nat)} {x y : σ × Op} (k : Nat)
    (hen : Operation.state x.2 = t.source ∧ t.cond x.2 prev = true)
    (hrun : runActions t.actions x = .returns y) :
    attemptTransition (t.logged k) prev ((x.1, log), x.2)
      = .returns ((y.1, log ++ [(sequenceNumber x.2, k)]), withState y.2 t.target) := by
  have hlog : runActions (t.logged k).actions ((x.1, log), x.2)
      = .returns ((y.1, log ++ [(sequenceNumber x.2, k)]), y.2) := runActions_besideLog hrun
  refine (if_pos hen).trans ?_
  rw [hlog]
  rfl

/-- An attempt that cannot be made notes nothing. -/
theorem attemptTransition_logged_skips {t : Transition σ Op State} {prev : State}
    {log : List (Nat × Nat)} {x : σ × Op} (k : Nat)
    (hen : ¬(Operation.state x.2 = t.source ∧ t.cond x.2 prev = true)) :
    attemptTransition (t.logged k) prev ((x.1, log), x.2) = .returns ((x.1, log), x.2) :=
  if_neg hen

/-- The states on the way along the transitions of some places in the list. -/
def Path (ts : List (Transition σ Op State)) : State → List Nat → State → Prop
  | from_, [], to_ => from_ = to_
  | from_, k :: ks, to_ => ∃ t, ts[k]? = some t ∧ t.source = from_ ∧ Path ts t.target ks to_

/-- **One visit**: the transitions that ran their actions lead from the state before to the
    state after, each later in the list than the one before it. -/
theorem transition_logged {prev : State} :
    ∀ (log : List (Nat × Nat)) (rest done : List (Transition σ Op State)),
      (∀ t ∈ rest, ∀ a ∈ t.actions, ∀ s op,
        sequenceNumber (a s op).state.2 = sequenceNumber op) →
    ∀ {x y : σ × Op}, transition rest prev x = .returns y →
      ∃ ks, (∀ k ∈ ks, done.length ≤ k) ∧ ks.Pairwise (· < ·) ∧
        Path (done ++ rest) (Operation.state x.2) ks (Operation.state y.2) ∧
        transition (loggedFrom done.length rest) prev ((x.1, log), x.2)
          = .returns ((y.1, log ++ ks.map fun k => (sequenceNumber x.2, k)), y.2) := by
  intro log rest
  induction rest generalizing log with
  | nil =>
      intro done _ x y h
      obtain rfl := Outcome.returns.inj h
      refine ⟨[], by simp, List.Pairwise.nil, rfl, ?_⟩
      rw [List.map_nil, List.append_nil]
      rfl
  | cons t rest ih =>
      intro done hkeeps x y h
      have hassoc : done ++ t :: rest = (done ++ [t]) ++ rest := by
        rw [List.append_assoc, List.singleton_append]
      have hlength : (done ++ [t]).length = done.length + 1 := by
        rw [List.length_append, List.length_singleton]
      have hkeeps' : ∀ t' ∈ rest, ∀ a ∈ t'.actions, ∀ s op,
          sequenceNumber (a s op).state.2 = sequenceNumber op :=
        fun t' ht' => hkeeps t' (List.mem_cons_of_mem _ ht')
      rw [transition, attemptTransition] at h
      rw [loggedFrom, transition]
      by_cases hen : Operation.state x.2 = t.source ∧ t.cond x.2 prev = true
      · rw [if_pos hen] at h
        cases hrun : runActions t.actions x with
        | throws z => rw [hrun] at h; exact absurd h (by simp)
        | returns z =>
            rw [hrun, Outcome.bind_returns, Outcome.bind_returns] at h
            have hseq : sequenceNumber z.2 = sequenceNumber x.2 := by
              have hact := runActions_number (hkeeps t List.mem_cons_self) x
              rw [hrun] at hact
              exact hact
            obtain ⟨ks, hle, hsorted, hpath, hrest⟩ := ih
              (log ++ [(sequenceNumber x.2, done.length)]) (done ++ [t]) hkeeps' h
            rw [hlength] at hle hrest
            refine ⟨done.length :: ks, ?_, ?_, ?_, ?_⟩
            · intro k hk
              rcases List.mem_cons.mp hk with rfl | hk
              · exact Nat.le_refl _
              · exact Nat.le_of_succ_le (hle k hk)
            · exact List.Pairwise.cons (fun k hk => hle k hk) hsorted
            · refine ⟨t, ?_, hen.1.symm, ?_⟩
              · rw [List.getElem?_append_right (Nat.le_refl _), Nat.sub_self]
                rfl
              · rw [Operation.state_withState] at hpath
                rw [hassoc]
                exact hpath
            · rw [attemptTransition_logged _ hen hrun, Outcome.bind_returns]
              rw [Operation.sequenceNumber_withState, hseq, List.append_assoc] at hrest
              exact hrest
      · rw [if_neg hen, Outcome.bind_returns] at h
        obtain ⟨ks, hle, hsorted, hpath, hrest⟩ := ih log (done ++ [t]) hkeeps' h
        rw [hlength] at hle hrest
        refine ⟨ks, fun k hk => Nat.le_of_succ_le (hle k hk), hsorted, hassoc ▸ hpath, ?_⟩
        rw [attemptTransition_logged_skips _ hen, Outcome.bind_returns]
        exact hrest

/-- The state of an operation of a deque; finished if it is gone. -/
def stateAfter (ops : List Op) (n : Nat) : State :=
  match ops.find? (fun o => sequenceNumber o == n) with
  | some o => Operation.state o
  | none => finished Op

/-- The transitions that a log has for an operation. -/
def entries (log : List (Nat × Nat)) (n : Nat) : List Nat :=
  (log.filter fun e => e.1 == n).map (·.2)

/-- **What a walk's log says**: operation by operation in the order of their numbers, and for
    each operation the transitions on its way from the state before to the state after, in the
    order of the list. -/
structure RunsOnce (ts : List (Transition σ Op State)) (ops ops' : List Op)
    (log : List (Nat × Nat)) : Prop where
  ordered : log.Pairwise fun a b => a.1 < b.1 ∨ a.1 = b.1 ∧ a.2 < b.2
  mine : ∀ e ∈ log, ∃ o ∈ ops, sequenceNumber o = e.1
  kept : ∀ o' ∈ ops', ∃ o ∈ ops, sequenceNumber o = sequenceNumber o'
  path : ∀ o ∈ ops, Path ts (Operation.state o) (entries log (sequenceNumber o))
    (stateAfter ops' (sequenceNumber o))

omit [DecidableEq State] in
/-- The state of an operation that is still there. -/
theorem stateAfter_mem {next : Nat} {ops : List Op} {op : Op} (hnum : Numbered next ops)
    (hop : op ∈ ops) : stateAfter ops (sequenceNumber op) = Operation.state op := by
  rw [stateAfter, numbered_find hnum hop]

omit [DecidableEq State] in
/-- An operation that is gone has finished. -/
theorem stateAfter_gone {ops : List Op} {n : Nat} (h : ∀ o ∈ ops, sequenceNumber o ≠ n) :
    stateAfter ops n = finished Op := by
  have hnone : ops.find? (fun o => sequenceNumber o == n) = none :=
    List.find?_eq_none.mpr (fun o ho heq => h o ho (beq_iff_eq.mp heq))
  rw [stateAfter, hnone]

/-- A log without an operation has no entries of it. -/
theorem entries_nil {log : List (Nat × Nat)} {n : Nat} (h : ∀ e ∈ log, e.1 ≠ n) :
    entries log n = [] := by
  rw [entries, List.filter_eq_nil_iff.mpr (fun e he heq => h e he (beq_iff_eq.mp heq))]
  rfl

/-- The entries of two logs. -/
theorem entries_append (log log' : List (Nat × Nat)) (n : Nat) :
    entries (log ++ log') n = entries log n ++ entries log' n := by
  rw [entries, List.filter_append, List.map_append]
  rfl

/-- One visit has entries of the visited operation only, -/
theorem entries_visit (m : Nat) (ks : List Nat) :
    entries (ks.map fun k => (m, k)) m = ks := by
  have hall : (ks.map fun k => (m, k)).filter (fun e => e.1 == m) = ks.map fun k => (m, k) := by
    refine List.filter_eq_self.mpr ?_
    intro e he
    obtain ⟨k, -, rfl⟩ := List.mem_map.mp he
    exact beq_self_eq_true _
  rw [entries, hall, List.map_map]
  exact List.map_id ks

/-- and none of the others. -/
theorem entries_visit_ne {m n : Nat} (ks : List Nat) (hne : n ≠ m) :
    entries (ks.map fun k => (m, k)) n = [] := by
  refine entries_nil ?_
  intro e he heq
  obtain ⟨k, -, rfl⟩ := List.mem_map.mp he
  exact hne heq.symm

/-- A visit is written down in front of what is visited later. -/
theorem le_visit {n : Nat} {new : List (Nat × Nat)} (ks : List Nat)
    (h : ∀ e ∈ new, n < e.1) : ∀ e ∈ ks.map (fun k => (n, k)) ++ new, n ≤ e.1 := by
  intro e he
  rcases List.mem_append.mp he with hfirst | hnew
  · obtain ⟨k, -, rfl⟩ := List.mem_map.mp hfirst
    exact Nat.le_refl _
  · exact Nat.le_of_lt (h e hnew)

omit [DecidableEq State] in
/-- A walk that does nothing. -/
theorem RunsOnce.refl (ts : List (Transition σ Op State)) {next : Nat} {ops : List Op}
    (hnum : Numbered next ops) : RunsOnce ts ops ops [] where
  ordered := List.Pairwise.nil
  mine := nofun
  kept := fun o ho => ⟨o, ho, rfl⟩
  path := fun _ ho => (stateAfter_mem hnum ho).symm

/-- What is popped had come to its last state. -/
theorem popFinished_cases {next : Nat} {ops : List Op} {op : Op} (hnum : Numbered next ops)
    (hop : op ∈ ops) : op ∈ popFinished ops ∨
      (Operation.state op = finished Op ∧
        ∀ o ∈ popFinished ops, sequenceNumber o ≠ sequenceNumber op) := by
  have hsplit : ops = ops.takeWhile (fun op => decide (Operation.state op = finished Op))
      ++ popFinished ops := (List.takeWhile_append_dropWhile).symm
  have hop' := hop
  rw [hsplit] at hop'
  rcases List.mem_append.mp hop' with hgone | hkept
  · have hfin : Operation.state op = finished Op := of_decide_eq_true
      (List.mem_takeWhile_imp (p := fun o => decide (Operation.state o = finished Op)) hgone)
    refine Or.inr ⟨hfin, ?_⟩
    obtain ⟨a, b, hab⟩ := List.append_of_mem hgone
    rw [hab, List.append_assoc, List.cons_append] at hsplit
    intro o ho
    exact numbered_ne (hsplit ▸ hnum) (Or.inr (List.mem_append_right _ ho))
  · exact Or.inl hkept

/-- A pop in front of the rest of a walk. -/
theorem RunsOnce.pop {ts : List (Transition σ Op State)} {next : Nat} {ops ops' : List Op}
    {log : List (Nat × Nat)} (hnum : Numbered next ops)
    (h : RunsOnce ts (popFinished ops) ops' log) : RunsOnce ts ops ops' log where
  ordered := h.ordered
  mine := by
    intro e he
    obtain ⟨o, ho, heq⟩ := h.mine e he
    exact ⟨o, mem_of_mem_popFinished ho, heq⟩
  kept := by
    intro o' ho'
    obtain ⟨o, ho, heq⟩ := h.kept o' ho'
    exact ⟨o, mem_of_mem_popFinished ho, heq⟩
  path := by
    intro o ho
    rcases popFinished_cases hnum ho with hkept | ⟨hfin, hgone⟩
    · exact h.path o hkept
    · have hnone : entries log (sequenceNumber o) = [] := by
        refine entries_nil ?_
        intro e he heq
        obtain ⟨o', ho', heq'⟩ := h.mine e he
        exact hgone o' ho' (heq'.trans heq)
      have hlast : stateAfter ops' (sequenceNumber o) = finished Op := by
        refine stateAfter_gone ?_
        intro o' ho' heq
        obtain ⟨o'', ho'', heq'⟩ := h.kept o' ho'
        exact hgone o'' ho'' (heq'.trans heq)
      rw [hnone, hlast]
      exact hfin

/-- **One visit in front of the rest of a walk** that goes on behind the visited operation. -/
theorem RunsOnce.visit {ts : List (Transition σ Op State)} {next : Nat} {pre post : List Op}
    {op op' : Op} {ops' : List Op} {ks : List Nat} {log : List (Nat × Nat)}
    (hnum : Numbered next (pre ++ op :: post)) (hseq : sequenceNumber op' = sequenceNumber op)
    (hsorted : ks.Pairwise (· < ·))
    (hpath : Path ts (Operation.state op) ks (Operation.state op'))
    (hlater : ∀ e ∈ log, sequenceNumber op < e.1)
    (h : RunsOnce ts (visited pre op' post) ops' log) :
    RunsOnce ts (pre ++ op :: post) ops' (ks.map (fun k => (sequenceNumber op, k)) ++ log) := by
  have hnum' : Numbered next (pre ++ op' :: post) := numbered_set hnum hseq
  have hrest : RunsOnce ts (pre ++ op' :: post) ops' log := by
    unfold visited at h
    split at h
    · exact RunsOnce.pop hnum' h
    · exact h
  obtain ⟨hordered, hmine, hkept, hpaths⟩ := hrest
  have hback : ∀ o ∈ pre ++ op' :: post, ∃ o' ∈ pre ++ op :: post,
      sequenceNumber o' = sequenceNumber o := by
    intro o ho
    rcases List.mem_append.mp ho with hpre | hmid
    · exact ⟨o, List.mem_append_left _ hpre, rfl⟩
    · rcases List.mem_cons.mp hmid with rfl | hpost
      · exact ⟨op, List.mem_append_right _ List.mem_cons_self, hseq.symm⟩
      · exact ⟨o, List.mem_append_right _ (List.mem_cons_of_mem _ hpost), rfl⟩
  refine ⟨?_, ?_, ?_, ?_⟩
  · refine List.pairwise_append.mpr ⟨?_, hordered, ?_⟩
    · exact List.pairwise_map.mpr (hsorted.imp (fun hlt => Or.inr ⟨rfl, hlt⟩))
    · intro e he e' he'
      obtain ⟨k, -, rfl⟩ := List.mem_map.mp he
      exact Or.inl (hlater e' he')
  · intro e he
    rcases List.mem_append.mp he with hfirst | hlog
    · obtain ⟨k, -, rfl⟩ := List.mem_map.mp hfirst
      exact ⟨op, List.mem_append_right _ List.mem_cons_self, rfl⟩
    · obtain ⟨o, ho, heq⟩ := hmine e hlog
      obtain ⟨o', ho', heq'⟩ := hback o ho
      exact ⟨o', ho', heq'.trans heq⟩
  · intro o' ho'
    obtain ⟨o, ho, heq⟩ := hkept o' ho'
    obtain ⟨o'', ho'', heq'⟩ := hback o ho
    exact ⟨o'', ho'', heq'.trans heq⟩
  · intro o ho
    by_cases hthis : sequenceNumber o = sequenceNumber op
    · -- the visited operation has the entries of the visit, and stays as they leave it
      have hsame : o = op := by
        rcases List.mem_append.mp ho with hpre | hmid
        · exact absurd hthis (numbered_ne hnum (Or.inl hpre))
        · rcases List.mem_cons.mp hmid with rfl | hpost
          · rfl
          · exact absurd hthis (numbered_ne hnum (Or.inr hpost))
      subst hsame
      have hnone : entries log (sequenceNumber o) = [] :=
        entries_nil (fun e he => Nat.ne_of_gt (hlater e he))
      have hend := hpaths op' (List.mem_append_right _ List.mem_cons_self)
      rw [hseq, hnone] at hend
      have hstay : Operation.state op' = stateAfter ops' (sequenceNumber o) := hend
      rw [entries_append, entries_visit, hnone, List.append_nil, ← hstay]
      exact hpath
    · rw [entries_append, entries_visit_ne _ hthis, List.nil_append]
      refine hpaths o ?_
      rcases List.mem_append.mp ho with hpre | hmid
      · exact List.mem_append_left _ hpre
      · rcases List.mem_cons.mp hmid with rfl | hpost
        · exact absurd rfl hthis
        · exact List.mem_append_right _ (List.mem_cons_of_mem _ hpost)

/-- One step of a walk, with its log. -/
theorem advanceOneOperation_logged {ts : List (Transition σ Op State)} (hf : Forward ts)
    {s : σ} {pre post : List Op} {op : Op} {next : Nat}
    (hnum : Numbered next (pre ++ op :: post)) {z : σ × Op}
    (htr : transition ts (lastState (finished Op) pre) (s, op) = .returns z)
    (log : List (Nat × Nat)) :
    ∃ ks, ks.Pairwise (· < ·) ∧ Path ts (Operation.state op) ks (Operation.state z.2) ∧
      advanceOneOperation (logged ts) (s, log) (pre ++ op :: post) pre.length op
        = .returns ((z.1, log ++ ks.map fun k => (sequenceNumber op, k)),
            visited pre z.2 post, decide (Operation.state z.2 ≠ Operation.state op)) := by
  obtain ⟨ks, -, hsorted, hpath, hlogged⟩ :=
    transition_logged log ts [] hf.keepsNumber htr
  exact ⟨ks, hsorted, hpath, advanceOneOperation_eq hnum hlogged⟩

/-- **`advanceOperation`, with its log.** -/
theorem advanceOperationLoop_logged {ts : List (Transition σ Op State)} (hf : Forward ts)
    {next : Nat} (fuel : Nat) :
    ∀ (s : σ) (ops : List Op) (n : Nat) (log : List (Nat × Nat)), Numbered next ops →
      ∀ y, advanceOperationLoop ts fuel s ops n = .returns y →
        ∃ new, (∀ e ∈ new, n ≤ e.1) ∧ RunsOnce ts ops y.2 new ∧
          advanceOperationLoop (logged ts) fuel (s, log) ops n
            = .returns ((y.1, log ++ new), y.2) := by
  induction fuel with
  | zero =>
      intro s ops n log hnum y hy
      obtain rfl := Outcome.returns.inj hy
      exact ⟨[], by simp, .refl ts hnum, by rw [List.append_nil]; rfl⟩
  | succ fuel ih =>
      intro s ops n log hnum y hy
      rw [advanceOperationLoop] at hy ⊢
      cases hfind : findOperation ops n with
      | none =>
          rw [hfind] at hy
          obtain rfl := Outcome.returns.inj hy
          exact ⟨[], by simp, .refl ts hnum, by rw [List.append_nil]⟩
      | some i =>
          obtain ⟨pre, op, post, rfl, rfl, hseq⟩ := exists_of_findOperation hnum hfind
          obtain rfl : sequenceNumber op = n := by omega
          rw [hfind] at hy
          simp only [getElem?_mid] at hy ⊢
          by_cases hfin : Operation.state op = finished Op
          · rw [if_pos hfin] at hy ⊢
            obtain rfl := Outcome.returns.inj hy
            exact ⟨[], by simp, .refl ts hnum, by rw [List.append_nil]⟩
          · rw [if_neg hfin] at hy ⊢
            cases hadv : advanceOneOperation ts s (pre ++ op :: post) pre.length op with
            | throws z => rw [hadv] at hy; exact absurd hy (by simp)
            | returns z =>
                rw [hadv] at hy
                obtain ⟨z, htr, rfl⟩ := transition_of_advance hnum hadv
                have hseq' : sequenceNumber z.2 = sequenceNumber op :=
                  transition_number hf.keepsNumber _ _ htr
                have hnum' : Numbered next (visited pre z.2 post) := numbered_visited hnum hseq'
                obtain ⟨ks, hsorted, hpath, hlogged⟩ :=
                  advanceOneOperation_logged hf hnum htr log
                rw [hlogged]
                dsimp only at hy ⊢
                by_cases hmoved : decide (Operation.state z.2 ≠ Operation.state op) = true
                · rw [if_pos hmoved] at hy ⊢
                  obtain ⟨new, hle, honce, hrun⟩ := ih _ _ _
                    (log ++ ks.map fun k => (sequenceNumber op, k)) hnum' y hy
                  refine ⟨_, le_visit ks hle, .visit hnum hseq' hsorted hpath hle honce, ?_⟩
                  rw [hrun, List.append_assoc]
                · rw [if_neg hmoved] at hy ⊢
                  obtain rfl := Outcome.returns.inj hy
                  have honce : RunsOnce ts (pre ++ op :: post) (visited pre z.2 post)
                      (ks.map (fun k => (sequenceNumber op, k)) ++ []) :=
                    .visit hnum hseq' hsorted hpath (by simp) (.refl ts hnum')
                  rw [List.append_nil] at honce
                  have hle : ∀ e ∈ ks.map (fun k => (sequenceNumber op, k)) ++ [],
                      sequenceNumber op ≤ e.1 := le_visit ks (by simp)
                  rw [List.append_nil] at hle
                  exact ⟨_, hle, honce, rfl⟩

/-- **`advanceAllOperations`, with its log.** -/
theorem advanceAllOperationsLoop_logged {ts : List (Transition σ Op State)} (hf : Forward ts)
    {next : Nat} (fuel : Nat) :
    ∀ (s : σ) (ops : List Op) (n : Nat) (log : List (Nat × Nat)), Numbered next ops →
      ∀ y, advanceAllOperationsLoop ts fuel s ops n = .returns y →
        ∃ new, (∀ e ∈ new, n ≤ e.1) ∧ RunsOnce ts ops y.2 new ∧
          advanceAllOperationsLoop (logged ts) fuel (s, log) ops n
            = .returns ((y.1, log ++ new), y.2) := by
  induction fuel with
  | zero =>
      intro s ops n log hnum y hy
      obtain rfl := Outcome.returns.inj hy
      exact ⟨[], by simp, .refl ts hnum, by rw [List.append_nil]; rfl⟩
  | succ fuel ih =>
      intro s ops n log hnum y hy
      rw [advanceAllOperationsLoop] at hy ⊢
      cases hfind : findOperation ops n with
      | none =>
          rw [hfind] at hy
          obtain rfl := Outcome.returns.inj hy
          exact ⟨[], by simp, .refl ts hnum, by rw [List.append_nil]⟩
      | some i =>
          obtain ⟨pre, op, post, rfl, rfl, hseq⟩ := exists_of_findOperation hnum hfind
          obtain rfl : sequenceNumber op = n := by omega
          rw [hfind] at hy
          simp only [getElem?_mid] at hy ⊢
          cases hadv : advanceOneOperation ts s (pre ++ op :: post) pre.length op with
          | throws z => rw [hadv] at hy; exact absurd hy (by simp)
          | returns z =>
              rw [hadv] at hy
              obtain ⟨z, htr, rfl⟩ := transition_of_advance hnum hadv
              have hseq' : sequenceNumber z.2 = sequenceNumber op :=
                transition_number hf.keepsNumber _ _ htr
              obtain ⟨ks, hsorted, hpath, hlogged⟩ :=
                advanceOneOperation_logged hf hnum htr log
              obtain ⟨new, hle, honce, hrun⟩ := ih _ _ _
                (log ++ ks.map fun k => (sequenceNumber op, k))
                (numbered_visited hnum hseq') y hy
              refine ⟨_, le_visit ks hle, .visit hnum hseq' hsorted hpath hle honce, ?_⟩
              rw [hlogged]
              dsimp only
              rw [hrun, List.append_assoc]

-- ── Quiescence ───────────────────────────────────────────────────────────────

/-- What a walk leaves: consecutive numbers, an unfinished front, and for each operation
    exactly the transitions on its way, whose actions ran once each. -/
structure Traversed (ts : List (Transition σ Op State)) (next : Nat) (ops : List Op)
    (y : σ × List Op) (run : Outcome ((σ × List (Nat × Nat)) × List Op)) : Prop where
  numbered : Numbered next y.2
  front : FrontOpen y.2
  once : ∃ log, RunsOnce ts ops y.2 log ∧ run = .returns ((y.1, log), y.2)

/-- What is asked of the two walks over a queue: they end, for any more fuel does not change
    them; they leave what a walk leaves; and they leave no transition enabled, the walk from
    one operation if no other could move before. -/
structure Quiesces (ts : List (Transition σ Op State)) (s : σ) (ops : List Op) (next : Nat) :
    Prop where
  all : ∀ y, advanceAllOperations ts s ops = .returns y →
    Stable ts y.2 ∧ Traversed ts next ops y (advanceAllOperations (logged ts) (s, []) ops)
  one : ∀ op ∈ ops, ∀ y, advanceOperation ts s ops (sequenceNumber op) = .returns y →
    (Chained (fun prev o => sequenceNumber o = sequenceNumber op ∨ ¬ Enabled ts prev o)
      (finished Op) ops → Stable ts y.2) ∧
    Traversed ts next ops y (advanceOperation (logged ts) (s, []) ops (sequenceNumber op))
  ends : ∀ op ∈ ops, ∀ k,
    advanceAllOperationsLoop ts (ops.length + k) s ops (sequenceNumber op)
        = advanceAllOperationsLoop ts ops.length s ops (sequenceNumber op) ∧
      advanceOperationLoop ts (ops.length + k) s ops (sequenceNumber op)
        = advanceOperationLoop ts ops.length s ops (sequenceNumber op)

/-- The walk goes from each operation's state to the next by its attempts. -/
theorem advanceOperation_traversed {ts : List (Transition σ Op State)} (hf : Forward ts) {s : σ}
    {ops : List Op} {n next : Nat} (hnum : Numbered next ops) (hfront : FrontOpen ops)
    {y : σ × List Op} (hy : advanceOperation ts s ops n = .returns y) :
    Traversed ts next ops y (advanceOperation (logged ts) (s, []) ops n) := by
  obtain ⟨hnum', hfront'⟩ := advanceOperation_induct (P := fun _ ops => Kept next ops)
    (fun _ _ h => ⟨next, h.numbered⟩) (advanceOneOperation_kept hf) ⟨hnum, hfront⟩ hy
  obtain ⟨new, -, honce, hrun⟩ := advanceOperationLoop_logged hf _ s ops n [] hnum y hy
  exact ⟨hnum', hfront', new, honce, hrun⟩

/-- The walk over all does so, too. -/
theorem advanceAllOperations_traversed {ts : List (Transition σ Op State)} (hf : Forward ts)
    {s : σ} {ops : List Op} {next : Nat} (hnum : Numbered next ops) {y : σ × List Op}
    (hy : advanceAllOperations ts s ops = .returns y) :
    Traversed ts next ops y (advanceAllOperations (logged ts) (s, []) ops) := by
  obtain ⟨hnum', hfront'⟩ := advanceAllOperations_kept hf hnum hy
  cases ops with
  | nil =>
      obtain rfl := Outcome.returns.inj hy
      exact ⟨hnum', hfront', [], .refl ts hnum, rfl⟩
  | cons front rest =>
      obtain ⟨new, -, honce, hrun⟩ := advanceAllOperationsLoop_logged hf _ s _ _ [] hnum y hy
      exact ⟨hnum', hfront', new, honce, hrun⟩

/-- **Exactly when the queue comes to rest.**  The actions of `advanceAllOperations` return; the
    walks then do all that is asked of them if and only if the front is unfinished before, and
    the operations behind one that is popped unvisited had nothing to do. -/
theorem quiesces_iff {ts : List (Transition σ Op State)} (hf : Forward ts) {s : σ}
    {ops : List Op} {next : Nat} (hnum : Numbered next ops)
    (hreturns : ∃ y, advanceAllOperations ts s ops = .returns y) :
    Quiesces ts s ops next ↔ Uncut ts s ops ∧ FrontOpen ops := by
  constructor
  · rintro ⟨hall, hone, -⟩
    obtain ⟨y, hy⟩ := hreturns
    refine ⟨(advanceAllOperations_stable_iff hf hnum hy).mp (hall y hy).1, ?_⟩
    rintro front rest rfl hfin
    -- a finished front is left as it is by the walk that starts with it
    have hstop : advanceOperation ts s (front :: rest) (sequenceNumber front)
        = .returns (s, front :: rest) := by
      have hmid : front :: rest = [] ++ front :: rest := rfl
      rw [advanceOperation, List.length_cons, advanceOperationLoop, hmid,
        findOperation_mid (hmid ▸ hnum)]
      simp only [getElem?_mid]
      rw [if_pos hfin]
    exact (hone front List.mem_cons_self _ hstop).2.front front rest rfl hfin
  · rintro ⟨huncut, hfront⟩
    refine ⟨?_, ?_, ?_⟩
    · intro y hy
      exact ⟨(advanceAllOperations_stable_iff hf hnum hy).mpr huncut,
        advanceAllOperations_traversed hf hnum hy⟩
    · intro op hop y hy
      exact ⟨fun honly => advanceOperation_stable hf hnum (numbered_reach hnum hop) honly hy,
        advanceOperation_traversed hf hnum hfront hy⟩
    · intro op hop k
      exact ⟨advanceAllOperationsLoop_ends hf k _ s ops _ hnum (numbered_reach hnum hop),
        advanceOperationLoop_ends hf k _ s ops _ hnum (numbered_reach hnum hop)⟩

-- ── A machine of one transition ──────────────────────────────────────────────

/-- The states of a job. -/
inductive Phase where
  | started
  | done
deriving DecidableEq, Repr

/-- A job is done once it is ready, in whatever order the jobs become ready. -/
structure Job where
  number : Nat
  phase : Phase
  ready : Bool
deriving DecidableEq, Repr

instance : Operation Job Phase where
  sequenceNumber := Job.number
  state := Job.phase
  withState job phase := { job with phase }
  finished := .done
  state_withState _ _ := rfl
  sequenceNumber_withState _ _ := rfl

/-- A job is done once it is ready. -/
def jobTransitions : List (Transition Unit Job Phase) :=
  [{ source := .started, target := .done, cond := fun job _ => job.ready, actions := [] }]

/-- A job never goes back. -/
theorem jobTransitions_forward : Forward jobTransitions where
  later := List.pairwise_singleton _ _
  moves := by
    intro t ht
    obtain rfl := List.mem_singleton.mp ht
    exact nofun
  notFinished := by
    intro t ht
    obtain rfl := List.mem_singleton.mp ht
    exact nofun
  keepsNumber := by
    intro t ht a ha
    obtain rfl := List.mem_singleton.mp ht
    exact nomatch ha

/-- Two jobs are ready, and one between them was done before. -/
def cutQueue : List Job := [⟨0, .started, true⟩, ⟨1, .done, false⟩, ⟨2, .started, true⟩]

/-- **The walk is cut short**: the second job is popped with the first, and the third is not
    visited, although it is ready. -/
theorem cutQueue_restless :
    Numbered 3 cutQueue ∧ FrontOpen cutQueue ∧ ¬Quiesces jobTransitions () cutQueue 3 := by
  refine ⟨⟨rfl, rfl, rfl, trivial⟩, ?_, ?_⟩
  · intro front rest hqueue
    obtain ⟨rfl, -⟩ := List.cons.inj hqueue
    exact nofun
  · rintro ⟨hall, -, -⟩
    obtain ⟨⟨hidle, -⟩, -⟩ := hall ((), [⟨2, .started, true⟩]) rfl
    exact hidle ⟨_, List.mem_singleton_self _, rfl, rfl⟩

/-- Two jobs are ready, and one between them is not. -/
def openQueue : List Job := [⟨0, .started, true⟩, ⟨1, .started, false⟩, ⟨2, .started, true⟩]

theorem quiesces_iff_of_open : Quiesces jobTransitions () openQueue 3 := by
  have hopen : ∀ job ∈ openQueue, Operation.state job ≠ finished Job := by decide
  have hnum : Numbered 3 openQueue := ⟨rfl, rfl, rfl, trivial⟩
  refine (quiesces_iff jobTransitions_forward hnum ⟨_, rfl⟩).mpr ⟨?_, ?_⟩
  · intro pre op post hops _ _ hfin
    exact absurd hfin (hopen op (hops ▸ List.mem_append_right _ List.mem_cons_self))
  · intro front rest hqueue
    exact hopen front (hqueue ▸ List.mem_cons_self)

end TpStateMachine
