import Mathlib.Data.List.Range
import Mathlib.Tactic.Common
import Tensorpipe.OperationSideProofs

/-! # Queues as images of their numbers

    In a run without errors the state of an operation often depends on its number and on a
    few counters only.  The queue is then the IMAGE of the numbers given out so far, without
    the finished operations at the front, and a task changes the image at one number.

    This file names no subject.  It has the exact effect of a walk that finds all but one
    operation settled (`advance_image`), that of a walk that finishes none (`advanceAll_image`),
    and the numbers that satisfy a predicate, in order (`numbersBelow`), by which the two ends of
    a link count what they exchange. -/

namespace TpStateMachine

-- ── Popping ──────────────────────────────────────────────────────────────────

section Popping

variable {Op State : Type} [Operation Op State] [DecidableEq State]

theorem popFinished_cons_finished {op : Op} (rest : List Op)
    (h : Operation.state op = finished Op) : popFinished (op :: rest) = popFinished rest := by
  rw [popFinished, List.dropWhile_cons, if_pos (by simpa using h)]
  rfl

theorem popFinished_cons_open {op : Op} (rest : List Op)
    (h : Operation.state op ≠ finished Op) : popFinished (op :: rest) = op :: rest := by
  rw [popFinished, List.dropWhile_cons, if_neg (by simpa using h)]

/-- What stands behind an unfinished operation is not popped. -/
theorem popFinished_open {op : Op} (pre post : List Op) (h : Operation.state op ≠ finished Op) :
    popFinished (pre ++ op :: post) = popFinished pre ++ op :: post := by
  induction pre with
  | nil =>
      rw [List.nil_append, popFinished_cons_open post h]
      rfl
  | cons hd tl ih =>
      rw [List.cons_append]
      by_cases hfin : Operation.state hd = finished Op
      · rw [popFinished_cons_finished _ hfin, popFinished_cons_finished _ hfin, ih]
      · rw [popFinished_cons_open _ hfin, popFinished_cons_open _ hfin]
        rfl

theorem popFinished_append (pre post : List Op) :
    popFinished (popFinished pre ++ post) = popFinished (pre ++ post) := by
  induction pre with
  | nil => rfl
  | cons hd tl ih =>
      rw [List.cons_append]
      by_cases hfin : Operation.state hd = finished Op
      · rw [popFinished_cons_finished _ hfin, popFinished_cons_finished _ hfin, ih]
      · rw [popFinished_cons_open _ hfin, List.cons_append]

/-- Popping does not change what stands before the next operation. -/
theorem lastState_popFinished (pre : List Op) :
    lastState (finished Op) (popFinished pre) = lastState (finished Op) pre := by
  induction pre with
  | nil => rfl
  | cons hd tl ih =>
      by_cases hfin : Operation.state hd = finished Op
      · rw [popFinished_cons_finished _ hfin, ih, lastState, hfin]
      · rw [popFinished_cons_open _ hfin]

theorem numbered_popFinished {next : Nat} {ops : List Op} (h : Numbered next ops) :
    Numbered next (popFinished ops) :=
  popFinished_induct (P := Numbered next) (fun _ _ h _ => h.2) ops h

end Popping

-- ── A walk with one operation to move ────────────────────────────────────────

section Image

variable {Op State Call : Type} [Operation Op State] [DecidableEq State]

/-- No transition can fire, whatever stands before the operation. -/
def Settled (ts : List (Transition (Io Call) Op State)) (op : Op) : Prop :=
  ∀ prev, ¬ Enabled ts prev op

/-- A walk that starts at a settled operation, or at none, does nothing. -/
theorem advanceOperationLoop_settled {ts : List (Transition (Io Call) Op State)} {next : Nat}
    {ops : List Op} (hnum : Numbered next ops) {n : Nat}
    (h : ∀ o ∈ ops, sequenceNumber o = n → Settled ts o) (fuel : Nat) (io : Io Call) :
    advanceOperationLoop ts fuel io ops n = .returns (io, ops) := by
  cases fuel with
  | zero => rfl
  | succ fuel =>
      rw [advanceOperationLoop]
      cases hfind : findOperation ops n with
      | none => rfl
      | some i =>
          obtain ⟨pre, op, post, rfl, rfl, hseq⟩ := exists_of_findOperation hnum hfind
          simp only [getElem?_mid]
          by_cases hfin : Operation.state op = finished Op
          · rw [if_pos hfin]
          · have hset := h op (List.mem_append_right _ (List.mem_cons_self ..)) (by omega)
            have hone : advanceOneOperation ts io (pre ++ op :: post) pre.length op
                = .returns (io, pre ++ op :: post, false) := by
              rw [advanceOneOperation, transition_of_not_enabled (hset _)]
              simp only [if_neg hfin]
              simp
            rw [if_neg hfin, hone]
            rfl

/-- **Image rule.**  If every later operation is settled, advancing one operation makes one
    pass over it and pops what is finished at the front. -/
theorem advance_image {ts : List (Transition (Io Call) Op State)} {next : Nat}
    {x : Side Op Call} {pre post : List Op} {op op' : Op} {io' : Io Call}
    (hnum : Numbered next (pre ++ op :: post))
    (hops : x.ops = popFinished (pre ++ op :: post))
    (hopen : Operation.state op ≠ finished Op) (hpost : ∀ o ∈ post, Settled ts o)
    (htr : transition ts (lastState (finished Op) pre) (x.io, op) = .returns (io', op'))
    (hseq : sequenceNumber op' = sequenceNumber op) :
    x.advance ts (sequenceNumber op)
      = { x with io := io', ops := popFinished (pre ++ op' :: post) } := by
  rw [popFinished_open pre post hopen] at hops
  have hnumPopped : Numbered next (popFinished pre ++ op :: post) := by
    rw [← popFinished_open pre post hopen]
    exact numbered_popFinished hnum
  have hnum' : Numbered next (pre ++ op' :: post) := numbered_set hnum hseq
  have hset : (popFinished pre ++ op :: post).set (popFinished pre).length op'
      = popFinished pre ++ op' :: post := by simp
  have hpopped : popFinished (popFinished pre ++ op' :: post)
      = popFinished (pre ++ op' :: post) := popFinished_append pre (op' :: post)
  -- whether or not the operation moved, the walk ends right behind it
  have hnext : ∀ fuel, advanceOperationLoop ts fuel io' (popFinished (pre ++ op' :: post))
      (sequenceNumber op + 1) = .returns (io', popFinished (pre ++ op' :: post)) := by
    intro fuel
    refine advanceOperationLoop_settled (numbered_popFinished hnum') (fun o ho hon => ?_) fuel io'
    rcases List.mem_append.mp (mem_of_mem_popFinished ho) with hpre | hmid
    · have h1 := numbered_pre o hnum' hpre
      have h2 := numbered_mid hnum'
      rw [List.length_cons] at h1
      omega
    · rcases List.mem_cons.mp hmid with rfl | hmem
      · omega
      · exact hpost o hmem
  have hlength : (popFinished pre ++ op :: post).length
      = (popFinished pre ++ post).length + 1 := by simp [Nat.add_assoc]
  rw [Side.advance, advanceOperation, hops, hlength, advanceOperationLoop,
    findOperation_mid hnumPopped]
  simp only [getElem?_mid, if_neg hopen]
  rw [advanceOneOperation, prevOpState_mid hnumPopped, lastState_popFinished, htr]
  simp only [hset]
  by_cases hfin : Operation.state op' = finished Op
  · have hmoved : decide (Operation.state op' ≠ Operation.state op) = true :=
      decide_eq_true (fun heq => hopen (heq.symm.trans hfin))
    rw [if_pos hfin]
    simp only [hmoved, if_true, hpopped, hnext]
    rfl
  · rw [if_neg hfin]
    have hsame : popFinished pre ++ op' :: post = popFinished (pre ++ op' :: post) :=
      (popFinished_open pre post hfin).symm
    rw [hsame]
    by_cases hmoved : decide (Operation.state op' ≠ Operation.state op) = true
    · simp only [hmoved, if_true, hnext]
      rfl
    · simp only [Bool.eq_false_iff.mpr hmoved]
      rfl

-- ── Images ───────────────────────────────────────────────────────────────────

/-- The operations of the numbers below `next`. -/
def image (opAt : Nat → Op) (next : Nat) : List Op :=
  (List.range next).map opAt

omit [Operation Op State] [DecidableEq State] in
theorem image_succ (opAt : Nat → Op) (next : Nat) :
    image opAt (next + 1) = image opAt next ++ [opAt next] := by
  rw [image, List.range_succ, List.map_append]
  rfl

omit [Operation Op State] [DecidableEq State] in
theorem image_congr {opAt opAt' : Nat → Op} {next : Nat}
    (h : ∀ n < next, opAt' n = opAt n) : image opAt' next = image opAt next :=
  List.map_congr_left (fun n hn => h n (List.mem_range.mp hn))

omit [DecidableEq State] in
theorem numbered_image {opAt : Nat → Op} (h : ∀ n, sequenceNumber (opAt n) = n) (next : Nat) :
    Numbered next (image opAt next) := by
  induction next with
  | zero => trivial
  | succ next ih =>
      rw [image_succ]
      exact numbered_snoc ih (h next)

omit [Operation Op State] [DecidableEq State] in
/-- The image split at one number. -/
theorem image_split (opAt : Nat → Op) {n next : Nat} (hn : n < next) :
    image opAt next = image opAt n
      ++ opAt n :: (List.range' (n + 1) (next - (n + 1))).map opAt := by
  have hsplit : List.range next = List.range n ++ n :: List.range' (n + 1) (next - (n + 1)) := by
    obtain ⟨rest, rfl⟩ : ∃ rest, next = n + (rest + 1) := ⟨next - (n + 1), by omega⟩
    rw [List.range_eq_range', List.range_eq_range', ← List.range'_append_1, Nat.zero_add,
      List.range'_succ, show n + (rest + 1) - (n + 1) = rest by omega]
  rw [image, hsplit, List.map_append, List.map_cons]
  rfl

omit [DecidableEq State] in
theorem lastState_image {P : State → Prop} {opAt : Nat → Op} {n : Nat} (hfin : P (finished Op))
    (hall : ∀ k < n, P (Operation.state (opAt k))) :
    P (lastState (finished Op) (image opAt n)) := by
  cases n with
  | zero => exact hfin
  | succ k =>
      rw [image_succ, lastState_append]
      exact hall k (Nat.lt_succ_self k)

/-- **Submit rule for images.** -/
theorem submit_image {ts : List (Transition (Io Call) Op State)} {x : Side Op Call}
    (opAt opAt' : Nat → Op) {op : Op} (io' : Io Call)
    (hnum : ∀ n, sequenceNumber (opAt n) = n) (hnum' : ∀ n, sequenceNumber (opAt' n) = n)
    (hops : x.ops = popFinished (image opAt x.next)) (hop : sequenceNumber op = x.next)
    (hopen : Operation.state op ≠ finished Op)
    (htr : transition ts (lastState (finished Op) (image opAt x.next)) (x.io, op)
      = .returns (io', opAt' x.next))
    (hsame : ∀ n < x.next, opAt' n = opAt n) :
    x.submit ts op
      = { next := x.next + 1, io := io', ops := popFinished (image opAt' (x.next + 1)) } := by
  have hpushed : x.ops ++ [op] = popFinished (image opAt x.next ++ [op]) := by
    rw [popFinished_open _ _ hopen, hops]
  have hadv := advance_image (x := { x with next := x.next + 1, ops := x.ops ++ [op] })
    (numbered_snoc (numbered_image hnum x.next) hop) hpushed hopen
    (fun _ ho => (nomatch ho)) htr ((hnum' x.next).trans hop.symm)
  rw [hop] at hadv
  rw [Side.submit, hadv, image_succ, image_congr hsame]

variable [DecidableEq Call]

/-- **Report rule for images.** -/
theorem report_image {ts : List (Transition (Io Call) Op State)} {x : Side Op Call}
    (opAt opAt' : Nat → Op) {c : Call} {n : Nat} {f : Op → Op} (io' : Io Call)
    (hnum : ∀ m, sequenceNumber (opAt m) = m) (hnum' : ∀ m, sequenceNumber (opAt' m) = m)
    (hops : x.ops = popFinished (image opAt x.next)) (hn : n < x.next)
    (hopen : Operation.state (opAt n) ≠ finished Op)
    (hstate : Operation.state (f (opAt n)) = Operation.state (opAt n))
    (hnumber : sequenceNumber (f (opAt n)) = n) (hset : ∀ m, Settled ts (opAt m))
    (htr : transition ts (lastState (finished Op) (image opAt n)) (x.io.reported c, f (opAt n))
      = .returns (io', opAt' n))
    (hsame : ∀ m, m ≠ n → opAt' m = opAt m) :
    x.report ts c n f = { x with io := io', ops := popFinished (image opAt' x.next) } := by
  have hsplit := image_split opAt hn
  have hsplit' := image_split opAt' hn
  have hlist := numbered_image hnum x.next
  have hopenf : Operation.state (f (opAt n)) ≠ finished Op := by rw [hstate]; exact hopen
  rw [hsplit] at hops hlist
  have hlistf := numbered_set hlist (hnumber.trans (hnum n).symm)
  have hmodified : modifyOperation n f x.ops
      = popFinished (image opAt n ++ f (opAt n)
        :: (List.range' (n + 1) (x.next - (n + 1))).map opAt) := by
    have hpopped := numbered_popFinished hlist
    rw [popFinished_open _ _ hopen] at hops hpopped
    rw [popFinished_open _ _ hopenf, hops]
    have hmod := modifyOperation_mid hpopped f
    rw [hnum n] at hmod
    exact hmod
  have hadv := advance_image (x := { x with io := x.io.reported c, ops := modifyOperation n f x.ops })
    hlistf hmodified hopenf ?_ htr ((hnum' n).trans hnumber.symm)
  · rw [hnumber] at hadv
    rw [Side.report, hadv, hsplit', image_congr (fun m hm => hsame m (Nat.ne_of_lt hm)),
      List.map_congr_left (fun m hm => hsame m ?_)]
    have := (List.mem_range'_1.mp hm).1
    omega
  · intro o ho
    obtain ⟨m, -, rfl⟩ := List.mem_map.mp ho
    exact hset m

-- ── A walk over every operation ──────────────────────────────────────────────

omit [DecidableEq Call]

omit [DecidableEq State] in
theorem numbered_of_range {ops : List Op} {m : Nat}
    (h : ops.map sequenceNumber = List.range' m ops.length) : Numbered (m + ops.length) ops := by
  induction ops generalizing m with
  | nil => trivial
  | cons op rest ih =>
      rw [List.map_cons, List.length_cons, List.range'_succ] at h
      obtain ⟨hop, hrest⟩ := List.cons.inj h
      have hnum := ih hrest
      rw [Nat.add_right_comm] at hnum
      exact ⟨by rw [hop, List.length_cons, Nat.add_assoc], hnum⟩

/-- What is left of a segment once its front was popped. -/
theorem popFinished_segment (opAt : Nat → Op) (m k : Nat) :
    ∃ j ≤ k, popFinished ((List.range' m k).map opAt) = (List.range' (m + j) (k - j)).map opAt
      ∧ (∀ i < j, Operation.state (opAt (m + i)) = finished Op)
      ∧ (j < k → Operation.state (opAt (m + j)) ≠ finished Op) := by
  induction k generalizing m with
  | zero => exact ⟨0, Nat.le_refl 0, rfl, nofun, nofun⟩
  | succ k ih =>
      by_cases hfin : Operation.state (opAt m) = finished Op
      · obtain ⟨j, hj, hpop, hgone, hopen⟩ := ih (m + 1)
        refine ⟨j + 1, Nat.succ_le_succ hj, ?_, ?_, ?_⟩
        · rw [List.range'_succ, List.map_cons, popFinished_cons_finished _ hfin, hpop,
            Nat.add_right_comm, Nat.add_assoc, Nat.succ_sub_succ]
        · intro i hi
          cases i with
          | zero => exact hfin
          | succ i =>
              rw [Nat.add_comm i 1, ← Nat.add_assoc]
              exact hgone i (Nat.lt_of_succ_lt_succ hi)
        · intro hlt
          rw [Nat.add_comm j 1, ← Nat.add_assoc]
          exact hopen (Nat.lt_of_succ_lt_succ hlt)
      · refine ⟨0, Nat.zero_le _, ?_, nofun, fun _ => hfin⟩
        rw [List.range'_succ, List.map_cons, popFinished_cons_open _ hfin]
        rfl

/-- An open front is not popped, whatever finishes behind it. -/
theorem popFinished_frontOpen {ops : List Op} (h : FrontOpen ops) : popFinished ops = ops := by
  cases ops with
  | nil => rfl
  | cons op rest => exact popFinished_cons_open rest (h op rest rfl)

/-- A visit that pops nothing. -/
theorem advanceOneOperation_stays {σ : Type} {ts : List (Transition σ Op State)} {s s' : σ}
    {next : Nat} {pre post : List Op} {op op' : Op} (hnum : Numbered next (pre ++ op :: post))
    (htr : transition ts (lastState (finished Op) pre) (s, op) = .returns (s', op'))
    (hopen : FrontOpen (pre ++ op' :: post)) :
    ∃ advanced, advanceOneOperation ts s (pre ++ op :: post) pre.length op
      = .returns (s', pre ++ op' :: post, advanced) := by
  have hset : (pre ++ op :: post).set pre.length op' = pre ++ op' :: post := by simp
  rw [advanceOneOperation, prevOpState_mid hnum, htr]
  dsimp only
  rw [hset]
  by_cases hfin : Operation.state op' = finished Op
  · rw [if_pos hfin, popFinished_frontOpen hopen]
    exact ⟨_, rfl⟩
  · rw [if_neg hfin]
    exact ⟨_, rfl⟩

omit [DecidableEq State] in
/-- Two images side by side that go on from each other in their numbers. -/
theorem numbered_segments {opAt opAt' : Nat → Op} (hnum : ∀ n, sequenceNumber (opAt n) = n)
    (hnum' : ∀ n, sequenceNumber (opAt' n) = n) (m k j : Nat) :
    Numbered (m + (k + j)) ((List.range' m k).map opAt' ++ (List.range' (m + k) j).map opAt) := by
  have hmap : ∀ {f : Nat → Op}, (∀ n, sequenceNumber (f n) = n) → ∀ l : List Nat,
      (l.map f).map sequenceNumber = l := by
    intro f hf l
    rw [List.map_map]
    exact (List.map_congr_left (fun n _ => hf n)).trans (List.map_id l)
  have hlength : ((List.range' m k).map opAt' ++ (List.range' (m + k) j).map opAt).length
      = k + j := by
    rw [List.length_append, List.length_map, List.length_map, List.length_range',
      List.length_range']
  have hrange : ((List.range' m k).map opAt' ++ (List.range' (m + k) j).map opAt).map
      sequenceNumber = List.range' m
        ((List.range' m k).map opAt' ++ (List.range' (m + k) j).map opAt).length := by
    rw [hlength, List.map_append, hmap hnum', hmap hnum, List.range'_append_1]
  have h := numbered_of_range hrange
  rwa [hlength] at h

/-- The walk over the last `j` operations of a queue, when the `k` before them were visited and
    are still there: the first of those is open. -/
theorem advanceAllOperationsLoop_segment {ts : List (Transition (Io Call) Op State)} {m next : Nat}
    (opAt opAt' : Nat → Op) (ioAt : Nat → Io Call) (hnum : ∀ n, sequenceNumber (opAt n) = n)
    (hnum' : ∀ n, sequenceNumber (opAt' n) = n)
    (hopen : Operation.state (opAt' m) ≠ finished Op)
    (hgone : ∀ k < m, Operation.state (opAt' k) = finished Op)
    (hvisit : ∀ n, m ≤ n → n < next →
      transition ts (lastState (finished Op) (image opAt' n)) (ioAt n, opAt n)
        = .returns (ioAt (n + 1), opAt' n)) (j : Nat) :
    ∀ k fuel, m + k + j = next → j ≤ fuel →
      advanceAllOperationsLoop ts fuel (ioAt (m + k))
          ((List.range' m k).map opAt' ++ (List.range' (m + k) j).map opAt) (m + k)
        = .returns (ioAt next, (List.range' m (k + j)).map opAt') := by
  induction j with
  | zero =>
      intro k fuel hnext _
      have hnumbered := numbered_segments hnum hnum' m k 0
      obtain rfl : m + k = next := hnext
      rw [List.range'_zero, List.map_nil, List.append_nil] at hnumbered ⊢
      cases fuel with
      | zero => rfl
      | succ fuel =>
          rw [advanceAllOperationsLoop]
          cases hfind : findOperation ((List.range' m k).map opAt') ((m + k : Nat) : Int) with
          | none => rfl
          | some i =>
              obtain ⟨pre, op, post, hsplit, -, hseq⟩ := exists_of_findOperation hnumbered hfind
              rw [hsplit] at hnumbered
              have hmid := numbered_mid hnumbered
              omega
  | succ j ih =>
      intro k fuel hnext hfuel
      obtain ⟨fuel, rfl⟩ : ∃ f, fuel = f + 1 := ⟨fuel - 1, by omega⟩
      have hnumbered := numbered_segments hnum hnum' m k (j + 1)
      have hlength : ((List.range' m k).map opAt').length = k := by
        rw [List.length_map, List.length_range']
      rw [List.range'_succ, List.map_cons] at hnumbered ⊢
      have hfind := findOperation_mid hnumbered
      rw [hnum] at hfind
      have hprev : lastState (finished Op) ((List.range' m k).map opAt')
          = lastState (finished Op) (image opAt' (m + k)) := by
        -- those before `m` are gone, or nothing is left of the state before
        cases k with
        | zero => exact (lastState_image (P := fun st => st = finished Op) rfl hgone).symm
        | succ k =>
            rw [List.range'_1_concat, List.map_append, ← Nat.add_assoc, image_succ,
              List.map_singleton, lastState_append, lastState_append]
            rfl
      have hvisited := hvisit (m + k) (Nat.le_add_right m k) (by omega)
      rw [← hprev] at hvisited
      have hfront : FrontOpen ((List.range' m k).map opAt' ++ opAt' (m + k)
          :: (List.range' (m + k + 1) j).map opAt) := by
        intro front rest hsplit
        cases k with
        | zero =>
            obtain ⟨rfl, -⟩ := List.cons.inj hsplit
            exact hopen
        | succ k =>
            rw [List.range'_succ, List.map_cons, List.cons_append] at hsplit
            obtain ⟨rfl, -⟩ := List.cons.inj hsplit
            exact hopen
      obtain ⟨advanced, hone⟩ := advanceOneOperation_stays hnumbered hvisited hfront
      rw [advanceAllOperationsLoop, hfind]
      simp only [getElem?_mid]
      rw [hone]
      dsimp only
      have hrest := ih (k + 1) fuel (by omega) (by omega)
      rw [List.range'_1_concat, List.map_append, List.append_assoc, Nat.add_right_comm k 1 j]
        at hrest
      exact hrest

/-- **Image rule, every operation.**  If no visit finishes an operation, all are visited, in
    order. -/
theorem advanceAll_image {ts : List (Transition (Io Call) Op State)} {x : Side Op Call}
    (opAt opAt' : Nat → Op) (ioAt : Nat → Io Call) (hnum : ∀ n, sequenceNumber (opAt n) = n)
    (hnum' : ∀ n, sequenceNumber (opAt' n) = n) (hops : x.ops = popFinished (image opAt x.next))
    (hio : ioAt 0 = x.io)
    (hvisit : ∀ n < x.next, transition ts (lastState (finished Op) (image opAt' n))
      (ioAt n, opAt n) = .returns (ioAt (n + 1), opAt' n))
    (hdone : ∀ n, Operation.state (opAt n) = finished Op →
      opAt' n = opAt n ∧ ioAt (n + 1) = ioAt n)
    (hopen : ∀ n, Operation.state (opAt n) ≠ finished Op →
      Operation.state (opAt' n) ≠ finished Op) :
    x.advanceAll ts
      = { x with io := ioAt x.next, ops := popFinished (image opAt' x.next) } := by
  obtain ⟨m, hm, hpop, hgone, hfront⟩ := popFinished_segment opAt 0 x.next
  obtain ⟨m', hm', hpop', hgone', hfront'⟩ := popFinished_segment opAt' 0 x.next
  simp only [Nat.zero_add] at hpop hgone hfront hpop' hgone' hfront'
  -- the same ones are gone afterwards
  have hkept : ∀ i < m, Operation.state (opAt' i) = finished Op := by
    intro i hi
    rw [(hdone i (hgone i hi)).1]
    exact hgone i hi
  obtain rfl : m' = m := by
    rcases Nat.lt_trichotomy m' m with hlt | heq | hgt
    · exact absurd (hkept m' hlt) (hfront' (Nat.lt_of_lt_of_le hlt hm))
    · exact heq
    · exact absurd (hgone' m hgt) (hopen m (hfront (Nat.lt_of_lt_of_le hgt hm')))
  have hioAt : ∀ i ≤ m', ioAt i = x.io := by
    intro i
    induction i with
    | zero => exact fun _ => hio
    | succ i ih => exact fun hi => (hdone i (hgone i hi)).2.trans (ih (Nat.le_of_succ_le hi))
  rw [image, List.range_eq_range', hpop] at hops
  rw [image, List.range_eq_range', hpop', Side.advanceAll, hops]
  by_cases hend : m' = x.next
  · rw [hend, Nat.sub_self, List.range'_zero, List.map_nil, List.map_nil, hioAt x.next (by omega)]
    rfl
  · obtain ⟨k, hk⟩ : ∃ k, x.next - m' = k + 1 := ⟨x.next - m' - 1, by omega⟩
    have hloop := advanceAllOperationsLoop_segment opAt opAt' ioAt hnum hnum'
      (hopen m' (hfront (by omega))) hkept (fun n (_ : m' ≤ n) => hvisit n) (k + 1) 0 (k + 1)
      (by omega) (Nat.le_refl _)
    simp only [List.range'_zero, List.map_nil, List.nil_append, Nat.add_zero, Nat.zero_add,
      hioAt m' (Nat.le_refl _)] at hloop
    have hlength : ((List.range' m' (k + 1)).map opAt).length = k + 1 := by
      rw [List.length_map, List.length_range']
    have hall : advanceAllOperations ts x.io ((List.range' m' (k + 1)).map opAt)
        = .returns (ioAt x.next, (List.range' m' (k + 1)).map opAt') := by
      rw [← hloop]
      conv_lhs => rw [List.range'_succ, List.map_cons]
      rw [advanceAllOperations, hnum, ← List.map_cons, ← List.range'_succ, hlength]
    rw [hk, hall]
    rfl

end Image

-- ── Numbers that satisfy a predicate ─────────────────────────────────────────

/-- The numbers below a bound that satisfy a predicate, in order. -/
def numbersBelow (p : Nat → Bool) (k : Nat) : List Nat :=
  (List.range k).filter p

/-- How many numbers below this one satisfy the predicate. -/
def indexOf (p : Nat → Bool) (n : Nat) : Nat := (numbersBelow p n).length

section Numbers

variable {p : Nat → Bool}

theorem numbersBelow_succ (k : Nat) :
    numbersBelow p (k + 1) = numbersBelow p k ++ if p k = true then [k] else [] := by
  rw [numbersBelow, List.range_succ, List.filter_append, List.filter_singleton, Bool.cond_eq_ite]
  rfl

theorem numbersBelow_le {j k : Nat} (h : j ≤ k) :
    ∃ rest, numbersBelow p k = numbersBelow p j ++ rest := by
  induction k with
  | zero => exact ⟨[], by rw [Nat.le_zero.mp h, List.append_nil]⟩
  | succ k ih =>
      rcases Nat.lt_or_eq_of_le h with hlt | rfl
      · obtain ⟨rest, hrest⟩ := ih (Nat.le_of_lt_succ hlt)
        exact ⟨rest ++ if p k = true then [k] else [], by
          rw [numbersBelow_succ, hrest, List.append_assoc]⟩
      · exact ⟨[], (List.append_nil _).symm⟩

/-- Both ends of a link agree on the i-th number, however far each of them has come. -/
theorem numbersBelow_agree {j k i a b : Nat} (ha : (numbersBelow p j)[i]? = some a)
    (hb : (numbersBelow p k)[i]? = some b) : a = b := by
  have hearlier : ∀ {j k a b : Nat}, j ≤ k → (numbersBelow p j)[i]? = some a →
      (numbersBelow p k)[i]? = some b → a = b := by
    intro j k a b hle ha hb
    obtain ⟨rest, hrest⟩ := numbersBelow_le (p := p) hle
    obtain ⟨hi, -⟩ := List.getElem?_eq_some_iff.mp ha
    rw [hrest, List.getElem?_append_left hi, ha] at hb
    exact Option.some.inj hb
  rcases Nat.le_total j k with hle | hle
  · exact hearlier hle ha hb
  · exact (hearlier hle hb ha).symm

theorem indexOf_succ (n : Nat) : indexOf p (n + 1) = indexOf p n + if p n = true then 1 else 0 := by
  rw [indexOf, numbersBelow_succ, List.length_append]
  by_cases hn : p n = true
  · rw [if_pos hn, if_pos hn]
    rfl
  · rw [if_neg hn, if_neg hn]
    rfl

theorem indexOf_mono {m n : Nat} (h : m ≤ n) : indexOf p m ≤ indexOf p n := by
  obtain ⟨rest, hrest⟩ := numbersBelow_le (p := p) h
  rw [indexOf, indexOf, hrest, List.length_append]
  exact Nat.le_add_right _ _

/-- Different numbers that satisfy the predicate have different indices. -/
theorem indexOf_lt {m n : Nat} (h : m < n) (hm : p m = true) : indexOf p m < indexOf p n := by
  have hstep := indexOf_succ (p := p) m
  rw [if_pos hm] at hstep
  have hmono := indexOf_mono (p := p) h
  rw [Nat.succ_eq_add_one] at hmono
  omega

theorem indexOf_inj {m n : Nat} (hm : p m = true) (hn : p n = true)
    (h : indexOf p m = indexOf p n) : m = n := by
  rcases Nat.lt_trichotomy m n with hlt | heq | hgt
  · have := indexOf_lt hlt hm
    omega
  · exact heq
  · have := indexOf_lt hgt hn
    omega

/-- The number at an index. -/
theorem numbersBelow_getElem? {k i n : Nat} :
    (numbersBelow p k)[i]? = some n ↔ n < k ∧ p n = true ∧ indexOf p n = i := by
  constructor
  · intro h
    have hmem : n ∈ numbersBelow p k := List.mem_of_getElem? h
    obtain ⟨hlt, hn⟩ := List.mem_filter.mp hmem
    rw [List.mem_range] at hlt
    refine ⟨hlt, hn, ?_⟩
    -- `n` stands right behind the numbers below it
    have hself : (numbersBelow p k)[indexOf p n]? = some n := by
      obtain ⟨rest, hrest⟩ := numbersBelow_le (p := p) (show n + 1 ≤ k from hlt)
      rw [hrest, numbersBelow_succ, if_pos hn, List.append_assoc, indexOf,
        List.getElem?_append_right (Nat.le_refl _), Nat.sub_self]
      rfl
    have hnodup : (numbersBelow p k).Nodup := List.nodup_range.filter _
    obtain ⟨hi, hgeti⟩ := List.getElem?_eq_some_iff.mp h
    obtain ⟨hj, hgetj⟩ := List.getElem?_eq_some_iff.mp hself
    exact (hnodup.getElem_inj_iff.mp (hgeti.trans hgetj.symm)).symm
  · rintro ⟨hlt, hn, rfl⟩
    obtain ⟨rest, hrest⟩ := numbersBelow_le (p := p) (show n + 1 ≤ k from hlt)
    rw [hrest, numbersBelow_succ, if_pos hn, List.append_assoc, indexOf,
      List.getElem?_append_right (Nat.le_refl _), Nat.sub_self]
    rfl

end Numbers

end TpStateMachine
