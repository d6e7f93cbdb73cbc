import Mathlib.Tactic.Common
import Tensorpipe.MptChannelProofs
import Tensorpipe.SideImageProofs

/-! # What the lanes of an mpt channel have carried

    A tensor goes over all lanes at once, and no frame says which tensor or which part of it it
    carries: a lane only delivers its k-th frame to its k-th read.  So the order in which the
    chunks are issued has to be the same on every lane and at both ends.

    It is, because either half of a channel is an image of the numbers of its operations: what
    an operation waits for is a matter of whether the lanes are there and of how many frames
    each of them has carried, and the chunks that were issued are those of the tensors that are
    not empty, in order. -/

namespace TpMpt

open TpStateMachine

-- ── Where a tensor is cut ────────────────────────────────────────────────────

section Chunks

variable {numLanes length laneIdx : Nat} {op : LaneOperation}

/-- As long as nothing wraps, the cutpoints divide the tensor evenly. -/
theorem cutpoint_eq (hlane : laneIdx ≤ numLanes) (hsmall : length * numLanes < 2 ^ 64) :
    cutpoint length numLanes laneIdx = length * laneIdx / numLanes := by
  rw [cutpoint, Nat.mod_eq_of_lt (Nat.lt_of_le_of_lt (Nat.mul_le_mul_left _ hlane) hsmall)]

/-- A chunk goes from its cutpoint to the next one. -/
theorem chunk_bounds (hlane : laneIdx < numLanes) (hsmall : op.length * numLanes < 2 ^ 64) :
    (chunk numLanes op laneIdx).offset = op.length * laneIdx / numLanes
      ∧ (chunk numLanes op laneIdx).offset + (chunk numLanes op laneIdx).length
        = op.length * (laneIdx + 1) / numLanes := by
  have hstart := cutpoint_eq (Nat.le_of_lt hlane) hsmall
  have hend : cutpoint op.length numLanes (laneIdx + 1) = op.length * (laneIdx + 1) / numLanes :=
    cutpoint_eq hlane hsmall
  have hle : op.length * laneIdx / numLanes ≤ op.length * (laneIdx + 1) / numLanes :=
    Nat.div_le_div_right (Nat.mul_le_mul_left _ (Nat.le_succ laneIdx))
  have hlt : op.length * (laneIdx + 1) / numLanes < 2 ^ 64 :=
    Nat.lt_of_le_of_lt (Nat.div_le_self _ _)
      (Nat.lt_of_le_of_lt (Nat.mul_le_mul_left _ hlane) hsmall)
  refine ⟨hstart, ?_⟩
  show cutpoint op.length numLanes laneIdx + (cutpoint op.length numLanes (laneIdx + 1)
    + (2 ^ 64 - cutpoint op.length numLanes laneIdx)) % 2 ^ 64 = _
  rw [hstart, hend]
  generalize op.length * laneIdx / numLanes = a at hle ⊢
  generalize op.length * (laneIdx + 1) / numLanes = b at hle hlt ⊢
  have hwrap : b + (2 ^ 64 - a) = (b - a) + 2 ^ 64 := by omega
  rw [hwrap, Nat.add_mod_right, Nat.mod_eq_of_lt (by omega)]
  omega

/-- The frame carries this position of this tensor. -/
def LaneCall.covers (n o : Nat) (call : LaneCall) : Bool :=
  decide (call.sequenceNumber = n ∧ call.offset ≤ o ∧ o < call.offset + call.length)

/-- A chunk covers the bytes between its cutpoints. -/
theorem chunk_covers (hlane : laneIdx < numLanes) (hsmall : op.length * numLanes < 2 ^ 64)
    (n o : Nat) : (chunk numLanes op laneIdx).covers n o = true ↔ op.sequenceNumber = n
      ∧ op.length * laneIdx / numLanes ≤ o ∧ o < op.length * (laneIdx + 1) / numLanes := by
  obtain ⟨hstart, hend⟩ := chunk_bounds hlane hsmall
  rw [LaneCall.covers, decide_eq_true_iff, hend, hstart]
  rfl

/-- The chunks of a tensor tile it: they go over each of its positions once, and over none
    beyond its end. -/
theorem chunks_tile (hlanes : 0 < numLanes) (hsmall : op.length * numLanes < 2 ^ 64) (o : Nat) :
    ((List.range numLanes).map (chunk numLanes op)).countP (·.covers op.sequenceNumber o)
      = if o < op.length then 1 else 0 := by
  -- the first `k` chunks tile the part before the k-th cutpoint
  have hcut : ∀ k ≤ numLanes,
      ((List.range k).map (chunk numLanes op)).countP (·.covers op.sequenceNumber o)
        = if o < op.length * k / numLanes then 1 else 0 := by
    intro k
    induction k with
    | zero =>
        intro _
        rw [Nat.mul_zero, Nat.zero_div, if_neg (Nat.not_lt_zero o)]
        rfl
    | succ k ih =>
        intro hk
        have hcovers := chunk_covers hk hsmall op.sequenceNumber o
        have hle : op.length * k / numLanes ≤ op.length * (k + 1) / numLanes :=
          Nat.div_le_div_right (Nat.mul_le_mul_left _ (Nat.le_succ k))
        rw [List.range_succ, List.map_append, List.countP_append, ih (Nat.le_of_succ_le hk),
          List.map_singleton, List.countP_singleton]
        by_cases hbefore : o < op.length * k / numLanes
        · rw [if_pos hbefore, if_pos (Nat.lt_of_lt_of_le hbefore hle), if_neg]
          exact fun h => Nat.not_lt.mpr (hcovers.mp h).2.1 hbefore
        · rw [if_neg hbefore, Nat.zero_add]
          refine if_congr ?_ rfl rfl
          rw [hcovers]
          exact ⟨fun h => h.2.2, fun h => ⟨rfl, Nat.le_of_not_lt hbefore, h⟩⟩
  rw [hcut numLanes (Nat.le_refl _), Nat.mul_div_cancel _ hlanes]

end Chunks

-- ── Half a channel as an image ───────────────────────────────────────────────

/-- The tensors that are not empty are the ones that travel. -/
def travels (lengths : Nat → Nat) (n : Nat) : Bool := lengths n != 0

/-- An operation as it was submitted. -/
def submitted (lengths ptrs : Nat → Nat) (n : Nat) : LaneOperation where
  sequenceNumber := n
  ptr := ptrs n
  length := lengths n

/-- How many chunks of the n-th tensor are under way when each lane has carried its first
    `carried` frames. -/
def underWay (numLanes : Nat) (lengths carried : Nat → Nat) (n : Nat) : Nat :=
  (List.range numLanes).countP
    (fun laneIdx => decide (carried laneIdx ≤ indexOf (travels lengths) n))

/-- An operation, read off the number of chunks that each lane has carried. -/
def laneOpAt (numLanes : Nat) (established : Bool) (lengths ptrs carried : Nat → Nat) (n : Nat) :
    LaneOperation :=
  if travels lengths n = false then { submitted lengths ptrs n with state := .finished }
  else if established = false then submitted lengths ptrs n
  else { submitted lengths ptrs n with
    state := if underWay numLanes lengths carried n = 0 then .finished else .transferringChunks
    numChunks := underWay numLanes lengths carried n }

/-- The chunks of the tensors that travel, in order. -/
def chunksBelow (numLanes : Nat) (lengths ptrs : Nat → Nat) (k : Nat) : List LaneCall :=
  (numbersBelow (travels lengths) k).flatMap
    (fun n => (List.range numLanes).map (chunk numLanes (submitted lengths ptrs n)))

/-- The transitions of either half, without an error. -/
def laneSteps (numLanes : Nat) (established : Bool) :
    List (Transition (Io LaneCall) LaneOperation LaneState) :=
  advanceLaneOperation { error := false, established, numLanes } (transferChunks numLanes)
    (callCallback false)

/-- Either half of a channel, by what its lanes have carried. -/
structure LaneImage (numLanes : Nat) (established : Bool) (lengths ptrs carried : Nat → Nat)
    (x : Side LaneOperation LaneCall) : Prop where
  ops : x.ops = popFinished (image (laneOpAt numLanes established lengths ptrs carried) x.next)
  issued : x.io.issued = if established then chunksBelow numLanes lengths ptrs x.next else []
  bound : ∀ laneIdx < numLanes, carried laneIdx ≤ indexOf (travels lengths) x.next
  idle : established = false → ∀ laneIdx, carried laneIdx = 0
  callbacks : ∀ n error, (n, error) ∈ x.io.callbacks → travels lengths n = true →
    ∀ laneIdx < numLanes, indexOf (travels lengths) n < carried laneIdx

section Image

variable {numLanes : Nat} {established : Bool} {lengths ptrs carried : Nat → Nat}
  {x : Side LaneOperation LaneCall}

/-- The chunks of one tensor more. -/
theorem chunksBelow_succ (k : Nat) :
    chunksBelow numLanes lengths ptrs (k + 1) = chunksBelow numLanes lengths ptrs k
      ++ if travels lengths k = true
        then (List.range numLanes).map (chunk numLanes (submitted lengths ptrs k)) else [] := by
  rw [chunksBelow, chunksBelow, numbersBelow_succ, List.flatMap_append]
  by_cases hk : travels lengths k = true
  · rw [if_pos hk, if_pos hk, List.flatMap_singleton]
  · rw [if_neg hk, if_neg hk, List.flatMap_nil]

/-- The operation at a place has that number. -/
@[simp] theorem laneOpAt_number (n : Nat) :
    (laneOpAt numLanes established lengths ptrs carried n).sequenceNumber = n := by
  rw [laneOpAt]
  split
  · rfl
  · split <;> rfl

/-- An empty tensor has finished. -/
theorem laneOpAt_empty {n : Nat} (h : travels lengths n = false) :
    laneOpAt numLanes established lengths ptrs carried n
      = { submitted lengths ptrs n with state := .finished } := by
  rw [laneOpAt, if_pos h]

/-- Before the handshake is over, a tensor waits as it was submitted. -/
theorem laneOpAt_waiting {n : Nat} (h : travels lengths n = true) :
    laneOpAt numLanes false lengths ptrs carried n = submitted lengths ptrs n := by
  rw [laneOpAt, if_neg (ne_of_eq_of_ne h Bool.noConfusion), if_pos rfl]

/-- After the handshake, a tensor is as far as its lanes. -/
theorem laneOpAt_established {n : Nat} (h : travels lengths n = true) :
    laneOpAt numLanes true lengths ptrs carried n = { submitted lengths ptrs n with
      state := if underWay numLanes lengths carried n = 0 then .finished else .transferringChunks
      numChunks := underWay numLanes lengths carried n } := by
  rw [laneOpAt, if_neg (ne_of_eq_of_ne h Bool.noConfusion), if_neg Bool.noConfusion]

-- What the transitions make of an operation in each of its places.

/-- An empty tensor finishes at once. -/
theorem laneSteps_empty {prev : LaneState} {io : Io LaneCall} {op : LaneOperation}
    (hstate : op.state = .uninitialized) (hlength : op.length = 0) :
    transition (laneSteps numLanes established) prev (io, op)
      = .returns (io.callback op.sequenceNumber false, { op with state := .finished }) := by
  simp [laneSteps, advanceLaneOperation, transition, attemptTransition, runActions,
    Operation.state, callCallback, withState, hstate, hlength]

/-- Before the handshake is over, no other tensor starts. -/
theorem laneSteps_waiting {prev : LaneState} {io : Io LaneCall} {op : LaneOperation}
    (hstate : op.state = .uninitialized) (hlength : op.length ≠ 0) :
    transition (laneSteps numLanes false) prev (io, op) = .returns (io, op) := by
  simp [laneSteps, advanceLaneOperation, transition, attemptTransition, Operation.state, hstate,
    hlength]

/-- What issuing all chunks of an operation does to the outside. -/
def issueChunks (numLanes : Nat) (op : LaneOperation) (io : Io LaneCall) : Io LaneCall :=
  { io with
    calls := io.calls ++ (List.range numLanes).map (chunk numLanes op)
    issued := io.issued ++ (List.range numLanes).map (chunk numLanes op) }

/-- A tensor starts by issuing a chunk on each lane. -/
theorem laneSteps_start (hlanes : 0 < numLanes) {prev : LaneState}
    (hprev : LaneState.transferringChunks ≤ prev) {io : Io LaneCall} {op : LaneOperation}
    (hstate : op.state = .uninitialized) (hcount : op.numChunks = 0) (hlength : op.length ≠ 0) :
    transition (laneSteps numLanes true) prev (io, op)
      = .returns (issueChunks numLanes op io,
        { op with state := .transferringChunks, numChunks := numLanes }) := by
  simp [laneSteps, advanceLaneOperation, transition, attemptTransition, runActions,
    Operation.state, transferChunks, transferChunksLoop_eq, issueChunks, withState, hstate, hcount,
    hlength, hprev, Nat.ne_of_gt hlanes]

/-- A tensor waits for all its chunks. -/
theorem laneSteps_going {prev : LaneState} {io : Io LaneCall} {op : LaneOperation}
    (hstate : op.state = .transferringChunks) (hcount : op.numChunks ≠ 0) :
    transition (laneSteps numLanes established) prev (io, op) = .returns (io, op) := by
  simp [laneSteps, advanceLaneOperation, transition, attemptTransition, Operation.state, hstate,
    hcount]

/-- A tensor finishes after its last chunk. -/
theorem laneSteps_finish {prev : LaneState} {io : Io LaneCall} {op : LaneOperation}
    (hstate : op.state = .transferringChunks) (hcount : op.numChunks = 0) :
    transition (laneSteps numLanes established) prev (io, op)
      = .returns (io.callback op.sequenceNumber false, { op with state := .finished }) := by
  simp [laneSteps, advanceLaneOperation, transition, attemptTransition, runActions,
    Operation.state, callCallback, withState, hstate, hcount]

/-- An operation as the image gives it cannot advance. -/
theorem laneOpAt_settled (n : Nat) : Settled (laneSteps numLanes established)
    (laneOpAt numLanes established lengths ptrs carried n) := by
  rintro prev ⟨t, ht, hsource, hcond⟩
  have hstate : (laneOpAt numLanes established lengths ptrs carried n).state = t.source := hsource
  simp only [laneSteps, advanceLaneOperation, List.mem_cons, List.not_mem_nil, or_false] at ht
  cases htravels : travels lengths n with
  | false =>
      rw [laneOpAt_empty htravels] at hstate
      rcases ht with rfl | rfl | rfl
      all_goals exact absurd hstate (by simp)
  | true =>
      have hlength : lengths n ≠ 0 := by simpa [travels] using htravels
      cases established with
      | false =>
          rw [laneOpAt_waiting htravels] at hstate hcond
          rcases ht with rfl | rfl | rfl
          · exact hlength (beq_iff_eq.mp hcond)
          · exact absurd hcond (by simp)
          · cases hstate
      | true =>
          rw [laneOpAt_established htravels] at hstate hcond
          by_cases hzero : underWay numLanes lengths carried n = 0
          · simp only [if_pos hzero] at hstate
            rcases ht with rfl | rfl | rfl
            all_goals exact absurd hstate (by simp)
          · simp only [if_neg hzero] at hstate
            rcases ht with rfl | rfl | rfl
            · exact absurd hstate (by simp)
            · exact absurd hstate (by simp)
            · exact hzero (beq_iff_eq.mp hcond)

/-- An operation as the image gives it lets the next one start. -/
theorem laneOpAt_state_le (n : Nat) : LaneState.transferringChunks
    ≤ Operation.state (laneOpAt numLanes true lengths ptrs carried n) := by
  show LaneState.transferringChunks ≤ (laneOpAt numLanes true lengths ptrs carried n).state
  cases htravels : travels lengths n with
  | false =>
      rw [laneOpAt_empty htravels]
      exact Nat.le_succ 1
  | true =>
      rw [laneOpAt_established htravels]
      by_cases hzero : underWay numLanes lengths carried n = 0
      · simp only [if_pos hzero]
        exact Nat.le_succ 1
      · simp only [if_neg hzero]
        exact Nat.le_refl 1

/-- A tensor that comes after all frames so far has every chunk under way. -/
theorem underWay_all {n : Nat}
    (h : ∀ laneIdx < numLanes, carried laneIdx ≤ indexOf (travels lengths) n) :
    underWay numLanes lengths carried n = numLanes := by
  rw [underWay, List.countP_eq_length.mpr, List.length_range]
  intro laneIdx hlane
  exact decide_eq_true (h laneIdx (List.mem_range.mp hlane))

/-- A side without operations. -/
theorem laneImage_empty (numLanes : Nat) (lengths ptrs : Nat → Nat) :
    LaneImage numLanes false lengths ptrs (fun _ => 0) {} :=
  ⟨rfl, rfl, fun _ _ => Nat.le_refl 0, fun _ _ => rfl, nofun⟩

/-- The chunks below a tensor do not depend on where it lies. -/
theorem chunksBelow_update (ptr k : Nat) :
    chunksBelow numLanes lengths (Function.update ptrs k ptr) k
      = chunksBelow numLanes lengths ptrs k := by
  refine List.flatMap_congr (fun n hn => ?_)
  have hlt := List.mem_range.mp (List.mem_filter.mp hn).1
  rw [submitted, Function.update_of_ne (Nat.ne_of_lt hlt)]
  rfl

/-- A new operation goes out at once if the lanes are there, and is done at once if it is
    empty. -/
theorem laneImage_submit (hlanes : 0 < numLanes)
    (h : LaneImage numLanes established lengths ptrs carried x) (ptr : Nat) :
    LaneImage numLanes established lengths (Function.update ptrs x.next ptr) carried
      (x.submit (laneSteps numLanes established)
        { sequenceNumber := x.next, ptr, length := lengths x.next }) := by
  have hopen : LaneState.uninitialized ≠ .finished := nofun
  have hself : (submitted lengths (Function.update ptrs x.next ptr) x.next)
      = { sequenceNumber := x.next, ptr, length := lengths x.next } := by
    rw [submitted, Function.update_self]
  have hsame : ∀ n < x.next,
      laneOpAt numLanes established lengths (Function.update ptrs x.next ptr) carried n
        = laneOpAt numLanes established lengths ptrs carried n := by
    intro n hn
    simp only [laneOpAt, submitted, Function.update_of_ne (Nat.ne_of_lt hn)]
  have hsubmit (io' : Io LaneCall) := @submit_image _ _ _ _ _ (laneSteps numLanes established) x
    (laneOpAt numLanes established lengths ptrs carried)
    (laneOpAt numLanes established lengths (Function.update ptrs x.next ptr) carried)
    { sequenceNumber := x.next, ptr, length := lengths x.next } io' laneOpAt_number
    laneOpAt_number h.ops rfl hopen
  cases htravels : travels lengths x.next with
  | false =>
      have hlength : lengths x.next = 0 := by simpa [travels] using htravels
      have hnot : ¬ travels lengths x.next = true := ne_of_eq_of_ne htravels Bool.noConfusion
      rw [hsubmit (x.io.callback x.next false) ?_ hsame]
      · refine ⟨rfl, ?_, ?_, h.idle, ?_⟩
        · show x.io.issued = _
          rw [h.issued, chunksBelow_succ, if_neg hnot, List.append_nil, chunksBelow_update]
        · intro laneIdx hlane
          rw [indexOf_succ, if_neg hnot]
          exact h.bound laneIdx hlane
        · intro n error hmem hn
          rcases List.mem_append.mp hmem with hold | hnew
          · exact h.callbacks n error hold hn
          · obtain ⟨rfl, -⟩ := Prod.mk.inj (List.mem_singleton.mp hnew)
            exact absurd hn hnot
      · rw [laneOpAt_empty htravels, hself]
        exact laneSteps_empty rfl hlength
  | true =>
      have hlength : lengths x.next ≠ 0 := by simpa [travels] using htravels
      have hbound : ∀ laneIdx < numLanes, carried laneIdx ≤ indexOf (travels lengths) (x.next + 1) :=
        fun laneIdx hlane => Nat.le_trans (h.bound laneIdx hlane) (indexOf_mono (Nat.le_succ _))
      cases established with
      | false =>
          rw [hsubmit x.io ?_ hsame]
          · exact ⟨rfl, h.issued, hbound, h.idle, h.callbacks⟩
          · rw [laneOpAt_waiting htravels, hself]
            exact laneSteps_waiting rfl hlength
      | true =>
          rw [hsubmit (issueChunks numLanes
            { sequenceNumber := x.next, ptr, length := lengths x.next } x.io) ?_ hsame]
          · refine ⟨rfl, ?_, hbound, h.idle, h.callbacks⟩
            show x.io.issued ++ _ = _
            rw [h.issued, if_pos rfl, if_pos rfl, chunksBelow_succ, if_pos htravels,
              chunksBelow_update, hself]
          · have hall := underWay_all h.bound
            rw [laneOpAt_established htravels, hself, hall, if_neg (Nat.ne_of_gt hlanes)]
            exact laneSteps_start hlanes (lastState_image
              (P := fun st => LaneState.transferringChunks ≤ st) (by decide)
              (fun n _ => laneOpAt_state_le n)) rfl rfl hlength

/-- One more frame on a lane: one chunk less under way for the tensor whose turn it was. -/
theorem underWay_next {laneIdx n : Nat} (hlane : laneIdx < numLanes)
    (hindex : indexOf (travels lengths) n = carried laneIdx) :
    underWay numLanes lengths (Function.update carried laneIdx (carried laneIdx + 1)) n + 1
      = underWay numLanes lengths carried n := by
  obtain ⟨before, after, hsplit⟩ := List.append_of_mem (List.mem_range.mpr hlane)
  have hnodup : (before ++ laneIdx :: after).Nodup := hsplit ▸ List.nodup_range
  have hother : ∀ l : List Nat, laneIdx ∉ l →
      l.countP (fun k => decide (Function.update carried laneIdx (carried laneIdx + 1) k
        ≤ indexOf (travels lengths) n))
      = l.countP (fun k => decide (carried k ≤ indexOf (travels lengths) n)) := by
    intro l hl
    refine List.countP_congr (fun k hk => ?_)
    rw [Function.update_of_ne]
    rintro rfl
    exact hl hk
  obtain ⟨-, hafter, hdisjoint⟩ := List.nodup_append.mp hnodup
  have hbefore : laneIdx ∉ before :=
    fun hmem => hdisjoint laneIdx hmem laneIdx (List.mem_cons_self ..) rfl
  rw [underWay, underWay, hsplit, List.countP_append, List.countP_append, hother before hbefore,
    List.countP_cons_of_neg, List.countP_cons_of_pos, hother after (List.nodup_cons.mp hafter).1,
    Nat.add_assoc]
  · exact decide_eq_true (Nat.le_of_eq hindex.symm)
  · rw [Function.update_self, decide_eq_true_iff, hindex]
    exact Nat.not_succ_le_self _

/-- The next chunk of a lane is one of one tensor only. -/
theorem laneOpAt_next {laneIdx n m : Nat} (hn : travels lengths n = true)
    (hindex : indexOf (travels lengths) n = carried laneIdx) (hne : m ≠ n) :
    laneOpAt numLanes true lengths ptrs
        (Function.update carried laneIdx (carried laneIdx + 1)) m
      = laneOpAt numLanes true lengths ptrs carried m := by
  cases hm : travels lengths m with
  | false => rw [laneOpAt_empty hm, laneOpAt_empty hm]
  | true =>
      have hother : indexOf (travels lengths) m ≠ carried laneIdx :=
        fun heq => hne (indexOf_inj hm hn (heq.trans hindex.symm))
      have hsame : underWay numLanes lengths
          (Function.update carried laneIdx (carried laneIdx + 1)) m
            = underWay numLanes lengths carried m := by
        refine List.countP_congr (fun k _ => ?_)
        by_cases hk : k = laneIdx
        · subst hk
          rw [Function.update_self, decide_eq_true_iff, decide_eq_true_iff]
          omega
        · rw [Function.update_of_ne hk]
      rw [laneOpAt_established hm, laneOpAt_established hm, hsame]

/-- The next frame of a lane is for the operation whose turn it is. -/
theorem laneImage_report (h : LaneImage numLanes true lengths ptrs carried x) {laneIdx n : Nat}
    (hlane : laneIdx < numLanes)
    (hn : (numbersBelow (travels lengths) x.next)[carried laneIdx]? = some n) (call : LaneCall) :
    LaneImage numLanes true lengths ptrs
      (Function.update carried laneIdx (carried laneIdx + 1))
      (x.report (laneSteps numLanes true) call n ChannelImpl.chunkDone) := by
  obtain ⟨hlt, htravels, hindex⟩ := numbersBelow_getElem?.mp hn
  have hnext := underWay_next hlane hindex
  generalize hcarried : Function.update carried laneIdx (carried laneIdx + 1) = carried' at hnext ⊢
  have hmono : ∀ k, carried k ≤ carried' k := by
    intro k
    rw [← hcarried]
    by_cases hk : k = laneIdx
    · rw [hk, Function.update_self]
      exact Nat.le_succ _
    · rw [Function.update_of_ne hk]
  have hbusy : ¬ underWay numLanes lengths carried n = 0 := by omega
  have hstate : (laneOpAt numLanes true lengths ptrs carried n).state = .transferringChunks := by
    rw [laneOpAt_established htravels, if_neg hbusy]
  have hdone : ChannelImpl.chunkDone (laneOpAt numLanes true lengths ptrs carried n)
      = { submitted lengths ptrs n with
        state := .transferringChunks
        numChunks := underWay numLanes lengths carried' n } := by
    rw [laneOpAt_established htravels, if_neg hbusy, ChannelImpl.chunkDone]
    simp only [← hnext, Nat.add_sub_cancel]
  have hbound : ∀ k < numLanes, carried' k ≤ indexOf (travels lengths) x.next := by
    intro k hk
    rw [← hcarried]
    by_cases heq : k = laneIdx
    · rw [heq, Function.update_self, ← hindex]
      exact indexOf_lt hlt htravels
    · rw [Function.update_of_ne heq]
      exact h.bound k hk
  have hold : ∀ m error, (m, error) ∈ x.io.callbacks → travels lengths m = true →
      ∀ k < numLanes, indexOf (travels lengths) m < carried' k :=
    fun m error hmem hm k hk => Nat.lt_of_lt_of_le (h.callbacks m error hmem hm k hk) (hmono k)
  have hreport (io' : Io LaneCall) := @report_image _ _ _ _ _ _ (laneSteps numLanes true) x
    (laneOpAt numLanes true lengths ptrs carried) (laneOpAt numLanes true lengths ptrs carried')
    call n ChannelImpl.chunkDone io' laneOpAt_number laneOpAt_number h.ops hlt
    (fun hfin => absurd (hstate.symm.trans hfin) (by simp)) rfl (laneOpAt_number n) laneOpAt_settled
  have hsame : ∀ m, m ≠ n → laneOpAt numLanes true lengths ptrs carried' m
      = laneOpAt numLanes true lengths ptrs carried m := by
    intro m hne
    rw [← hcarried]
    exact laneOpAt_next htravels hindex hne
  by_cases hlast : underWay numLanes lengths carried' n = 0
  · rw [hreport ((x.io.reported call).callback n false) ?_ hsame]
    · refine ⟨rfl, h.issued, hbound, by simp, ?_⟩
      intro m error hmem hm k hk
      rcases List.mem_append.mp hmem with hbefore | hnew
      · exact hold m error hbefore hm k hk
      · obtain ⟨rfl, -⟩ := Prod.mk.inj (List.mem_singleton.mp hnew)
        have hnone := List.countP_eq_zero.mp hlast k (List.mem_range.mpr hk)
        exact Nat.lt_of_not_le (fun hle => hnone (decide_eq_true hle))
    · rw [hdone, laneSteps_finish rfl hlast, laneOpAt_established htravels, if_pos hlast]
      rfl
  · rw [hreport (x.io.reported call) ?_ hsame]
    · exact ⟨rfl, h.issued, hbound, by simp, hold⟩
    · rw [hdone, laneSteps_going rfl hlast, laneOpAt_established htravels, if_neg hlast]

/-- Once the lanes are there, everything that waited for them goes out, in order. -/
theorem laneImage_established (hlanes : 0 < numLanes)
    (h : LaneImage numLanes false lengths ptrs carried x) :
    LaneImage numLanes true lengths ptrs carried (x.advanceAll (laneSteps numLanes true)) := by
  have hzero : ∀ n, ∀ laneIdx < numLanes, carried laneIdx ≤ indexOf (travels lengths) n := by
    intro n laneIdx _
    rw [h.idle rfl laneIdx]
    exact Nat.zero_le _
  have hissued : x.io.issued = [] := h.issued
  have hstart : ∀ n, travels lengths n = true → laneOpAt numLanes true lengths ptrs carried n
      = { submitted lengths ptrs n with
        state := .transferringChunks, numChunks := numLanes } := by
    intro n hn
    rw [laneOpAt_established hn, underWay_all (hzero n), if_neg (Nat.ne_of_gt hlanes)]
  have hsettled : ∀ n, travels lengths n = false → ∀ (prev : LaneState) (io : Io LaneCall),
      transition (laneSteps numLanes true) prev
          (io, laneOpAt numLanes false lengths ptrs carried n)
        = .returns (io, laneOpAt numLanes true lengths ptrs carried n) := by
    intro n hn prev io
    rw [laneOpAt_empty hn, ← laneOpAt_empty hn]
    exact transition_of_not_enabled (laneOpAt_settled n prev)
  have hfinished : ∀ n, Operation.state (laneOpAt numLanes false lengths ptrs carried n)
      = finished LaneOperation → travels lengths n = false := by
    intro n hfin
    refine eq_false_of_ne_true (fun hn => ?_)
    rw [laneOpAt_waiting hn] at hfin
    exact nomatch hfin
  let ioAt (k : Nat) : Io LaneCall := { x.io with
    calls := x.io.calls ++ chunksBelow numLanes lengths ptrs k
    issued := x.io.issued ++ chunksBelow numLanes lengths ptrs k }
  have hempty : ∀ n, travels lengths n = false → ioAt (n + 1) = ioAt n := by
    intro n hn
    have hnot : ¬ travels lengths n = true := ne_of_eq_of_ne hn Bool.noConfusion
    simp only [ioAt, chunksBelow_succ, if_neg hnot, List.append_nil]
  have hall : x.advanceAll (laneSteps numLanes true) = { x with
      io := ioAt x.next
      ops := popFinished (image (laneOpAt numLanes true lengths ptrs carried) x.next) } := by
    refine advanceAll_image (laneOpAt numLanes false lengths ptrs carried) _ ioAt laneOpAt_number
      laneOpAt_number h.ops ?_ ?_ ?_ ?_
    · show ({ x.io with
        calls := x.io.calls ++ [], issued := x.io.issued ++ [] } : Io LaneCall) = x.io
      rw [List.append_nil, List.append_nil]
    · intro n _
      cases hn : travels lengths n with
      | false => rw [hempty n hn, hsettled n hn]
      | true =>
          have hlength : lengths n ≠ 0 := by simpa [travels] using hn
          have hissue : ioAt (n + 1) = issueChunks numLanes (submitted lengths ptrs n) (ioAt n) := by
            simp only [ioAt, issueChunks, chunksBelow_succ, if_pos hn, List.append_assoc]
          rw [hissue, laneOpAt_waiting hn, hstart n hn]
          exact laneSteps_start hlanes (lastState_image
            (P := fun st => LaneState.transferringChunks ≤ st) (by decide)
            (fun n _ => laneOpAt_state_le n)) rfl rfl hlength
    · intro n hfin
      have hn := hfinished n hfin
      exact ⟨by rw [laneOpAt_empty hn, laneOpAt_empty hn], hempty n hn⟩
    · intro n hopen hfin
      cases hn : travels lengths n with
      | false =>
          rw [laneOpAt_empty hn] at hopen
          exact hopen rfl
      | true =>
          rw [hstart n hn] at hfin
          exact nomatch hfin
  rw [hall]
  refine ⟨rfl, ?_, h.bound, nofun, h.callbacks⟩
  show x.io.issued ++ _ = _
  rw [hissued]
  rfl

end Image

-- ── The frames of a connection ───────────────────────────────────────────────

/-- The frames that this half puts on or takes off a connection, in order. -/
def callsOn (lanes : List (Option Nat)) (io : Io LaneCall) (connection : Nat) : List LaneCall :=
  io.issued.filter (fun call => lanes.getD call.laneIdx none == some connection)

/-- How many frames each lane has carried, by how many its connection has. -/
def carriedBy (lanes : List (Option Nat)) (counts : Nat → Nat) (laneIdx : Nat) : Nat :=
  (lanes.getD laneIdx none).elim 0 counts

/-- No connection serves two lanes. -/
def Distinct (lanes : List (Option Nat)) : Prop :=
  ∀ (k l connection : Nat), lanes[k]? = some (some connection) →
    lanes[l]? = some (some connection) → k = l

section Frames

variable {numLanes : Nat} {lengths ptrs counts : Nat → Nat} {lanes : List (Option Nat)}
  {laneIdx connection k n : Nat} {call : LaneCall}

/-- A lane that is open has a connection. -/
theorem getD_eq_some : lanes.getD laneIdx none = some connection
    ↔ lanes[laneIdx]? = some (some connection) := by
  rw [List.getD_eq_getElem?_getD]
  cases lanes[laneIdx]? with
  | none => exact ⟨nofun, nofun⟩
  | some lane => exact ⟨congrArg some, Option.some.inj⟩

/-- An open lane has carried what its connection has. -/
theorem carriedBy_some (h : lanes[laneIdx]? = some (some connection)) :
    carriedBy lanes counts laneIdx = counts connection := by
  rw [carriedBy, getD_eq_some.mpr h]
  rfl

/-- As long as no connection carried anything, no lane did. -/
theorem carriedBy_idle (h : ∀ connection, counts connection = 0) (laneIdx : Nat) :
    carriedBy lanes counts laneIdx = 0 := by
  rw [carriedBy]
  cases lanes.getD laneIdx none with
  | none => rfl
  | some connection => exact h connection

/-- A frame on a connection is one on its lane, and on no other. -/
theorem carriedBy_update (hdistinct : Distinct lanes)
    (h : lanes[laneIdx]? = some (some connection)) :
    carriedBy lanes (Function.update counts connection (counts connection + 1))
      = Function.update (carriedBy lanes counts) laneIdx (carriedBy lanes counts laneIdx + 1) := by
  funext k
  by_cases hk : k = laneIdx
  · subst hk
    rw [Function.update_self, carriedBy_some h, carriedBy_some h, Function.update_self]
  · rw [Function.update_of_ne hk, carriedBy, carriedBy]
    cases hother : lanes.getD k none with
    | none => rfl
    | some connection' =>
        have hne : connection' ≠ connection := by
          rintro rfl
          exact hk (hdistinct k laneIdx connection' (getD_eq_some.mp hother) h)
        exact Function.update_of_ne hne _ _

/-- The chunks on a connection are those of its lane. -/
theorem range_connection (hdistinct : Distinct lanes) (hlane : laneIdx < numLanes)
    (hconnection : lanes[laneIdx]? = some (some connection)) :
    (List.range numLanes).filter (fun l => lanes.getD l none == some connection) = [laneIdx] := by
  obtain ⟨before, after, hsplit⟩ := List.append_of_mem (List.mem_range.mpr hlane)
  have hnodup : (before ++ laneIdx :: after).Nodup := hsplit ▸ List.nodup_range
  obtain ⟨-, hafter, hdisjoint⟩ := List.nodup_append.mp hnodup
  have hself : (lanes.getD laneIdx none == some connection) = true :=
    beq_iff_eq.mpr (getD_eq_some.mpr hconnection)
  have hnone : ∀ l : List Nat, laneIdx ∉ l →
      l.filter (fun l => lanes.getD l none == some connection) = [] := by
    intro l hl
    refine List.filter_eq_nil_iff.mpr (fun j hj hsome => hl ?_)
    rw [← hdistinct j laneIdx connection (getD_eq_some.mp (beq_iff_eq.mp hsome)) hconnection]
    exact hj
  have hbefore : laneIdx ∉ before :=
    fun hmem => hdisjoint laneIdx hmem laneIdx (List.mem_cons_self ..) rfl
  rw [hsplit, List.filter_append, List.filter_cons, if_pos hself, hnone before hbefore,
    hnone after (List.nodup_cons.mp hafter).1]
  rfl

/-- The chunks that go over the connection of a lane are the ones for that lane, in order. -/
theorem chunksBelow_lane (hdistinct : Distinct lanes) (hlane : laneIdx < numLanes)
    (hconnection : lanes[laneIdx]? = some (some connection)) :
    (chunksBelow numLanes lengths ptrs k).filter
        (fun call => lanes.getD call.laneIdx none == some connection)
      = (numbersBelow (travels lengths) k).map
        (fun n => chunk numLanes (submitted lengths ptrs n) laneIdx) := by
  rw [chunksBelow, List.filter_flatMap, List.map_eq_flatMap]
  refine List.flatMap_congr (fun n _ => ?_)
  rw [List.filter_map]
  have hone := range_connection hdistinct hlane hconnection
  exact congrArg (List.map (chunk numLanes (submitted lengths ptrs n))) hone

/-- A chunk belongs to a tensor that travels, and to a lane. -/
theorem mem_chunksBelow (h : call ∈ chunksBelow numLanes lengths ptrs k) :
    ∃ n < k, travels lengths n = true ∧ ∃ laneIdx < numLanes,
      call = chunk numLanes (submitted lengths ptrs n) laneIdx := by
  obtain ⟨n, hn, hcall⟩ := List.mem_flatMap.mp h
  obtain ⟨hlt, htravels⟩ := List.mem_filter.mp hn
  obtain ⟨laneIdx, hlane, rfl⟩ := List.mem_map.mp hcall
  exact ⟨n, List.mem_range.mp hlt, htravels, laneIdx, List.mem_range.mp hlane, rfl⟩

/-- The chunks of all tensors together go over each position of each tensor once. -/
theorem chunksBelow_tile (hlanes : 0 < numLanes) (hsmall : ∀ n, lengths n * numLanes < 2 ^ 64)
    (n o : Nat) : (chunksBelow numLanes lengths ptrs k).countP (·.covers n o)
      = if n < k ∧ o < lengths n then 1 else 0 := by
  induction k with
  | zero =>
      rw [if_neg (fun h => Nat.not_lt_zero n h.1)]
      rfl
  | succ k ih =>
      rw [chunksBelow_succ, List.countP_append, ih]
      by_cases hk : n = k
      · subst hk
        rw [if_neg (fun h => Nat.lt_irrefl n h.1), Nat.zero_add]
        by_cases htravels : travels lengths n = true
        · rw [if_pos htravels]
          refine (@chunks_tile numLanes (submitted lengths ptrs n) hlanes (hsmall n) o).trans
            (if_congr ?_ rfl rfl)
          exact ⟨fun h => ⟨Nat.lt_succ_self n, h⟩, fun h => h.2⟩
        · have hzero : lengths n = 0 := by simpa [travels] using htravels
          rw [if_neg htravels, if_neg (fun h => Nat.not_lt_zero o (hzero ▸ h.2))]
          rfl
      · have hnone : (if travels lengths k = true
            then (List.range numLanes).map (chunk numLanes (submitted lengths ptrs k))
            else []).countP (·.covers n o) = 0 := by
          refine List.countP_eq_zero.mpr (fun call hcall hcovers => hk ?_)
          have hcall' : call ∈ (List.range numLanes).map
              (chunk numLanes (submitted lengths ptrs k)) := by
            by_cases htravels : travels lengths k = true
            · rwa [if_pos htravels] at hcall
            · rw [if_neg htravels] at hcall
              exact nomatch hcall
          obtain ⟨laneIdx, -, rfl⟩ := List.mem_map.mp hcall'
          exact (of_decide_eq_true hcovers).1.symm
        rw [hnone, Nat.add_zero]
        refine if_congr ?_ rfl rfl
        exact and_congr_left (fun _ => ⟨Nat.lt_succ_of_lt,
          fun h => Nat.lt_of_le_of_ne (Nat.le_of_lt_succ h) hk⟩)

end Frames

-- ── Half a channel, by its connections ───────────────────────────────────────

/-- Half a channel, by what the connections behind its lanes have carried; before the lanes are
    all there that is nothing. -/
structure Half (numLanes : Nat) (established : Bool) (lanes : List (Option Nat))
    (lengths ptrs counts : Nat → Nat) (x : Side LaneOperation LaneCall) : Prop where
  image : LaneImage numLanes established lengths ptrs (carriedBy lanes counts) x
  idle : established = false → ∀ connection, counts connection = 0

section Half

variable {numLanes : Nat} {established : Bool} {lanes : List (Option Nat)}
  {lengths ptrs counts : Nat → Nat} {x : Side LaneOperation LaneCall}

/-- What the k-th frame on a connection is. -/
theorem half_call (h : Half numLanes established lanes lengths ptrs counts x)
    (hdistinct : Distinct lanes) {connection k : Nat} {call : LaneCall}
    (hcall : (callsOn lanes x.io connection)[k]? = some call) :
    established = true ∧ ∃ laneIdx n, laneIdx < numLanes
      ∧ lanes[laneIdx]? = some (some connection)
      ∧ (numbersBelow (travels lengths) x.next)[k]? = some n
      ∧ call = chunk numLanes (submitted lengths ptrs n) laneIdx := by
  cases established with
  | false =>
      have hissued : x.io.issued = [] := h.image.issued
      rw [callsOn, hissued] at hcall
      exact nomatch hcall
  | true =>
      have hissued : x.io.issued = chunksBelow numLanes lengths ptrs x.next := h.image.issued
      obtain ⟨hmem, hlane⟩ := List.mem_filter.mp (List.mem_of_getElem? hcall)
      rw [hissued] at hmem
      obtain ⟨_, -, -, laneIdx, hlt, hchunk⟩ := mem_chunksBelow hmem
      have hconnection : lanes[laneIdx]? = some (some connection) := by
        rw [beq_iff_eq, hchunk] at hlane
        exact getD_eq_some.mp hlane
      rw [callsOn, hissued, chunksBelow_lane hdistinct hlt hconnection, List.getElem?_map] at hcall
      obtain ⟨n, hn, hcall⟩ := Option.map_eq_some_iff.mp hcall
      exact ⟨rfl, laneIdx, n, hlt, hconnection, hn, hcall.symm⟩

/-- A new tensor is the last of the image. -/
theorem half_submit (hlanes : 0 < numLanes)
    (h : Half numLanes established lanes lengths ptrs counts x) (ptr : Nat) :
    Half numLanes established lanes lengths (Function.update ptrs x.next ptr) counts
      (x.submit (laneSteps numLanes established)
        { sequenceNumber := x.next, ptr, length := lengths x.next }) :=
  ⟨laneImage_submit hlanes h.image ptr, h.idle⟩

/-- The next frame on a connection reports. -/
theorem half_report (h : Half numLanes established lanes lengths ptrs counts x)
    (hdistinct : Distinct lanes) {connection : Nat} {call : LaneCall}
    (hcall : (callsOn lanes x.io connection)[counts connection]? = some call) :
    Half numLanes established lanes lengths ptrs
      (Function.update counts connection (counts connection + 1))
      (x.report (laneSteps numLanes established) call call.sequenceNumber
        ChannelImpl.chunkDone) := by
  obtain ⟨rfl, laneIdx, n, hlt, hconnection, hn, rfl⟩ := half_call h hdistinct hcall
  refine ⟨?_, nofun⟩
  rw [carriedBy_update hdistinct hconnection]
  refine laneImage_report h.image hlt ?_ _
  rw [carriedBy_some hconnection]
  exact hn

/-- A lane that is there before the others changes nothing. -/
theorem half_lanes (h : Half numLanes false lanes lengths ptrs counts x)
    (lanes' : List (Option Nat)) : Half numLanes false lanes' lengths ptrs counts x := by
  refine ⟨?_, h.idle⟩
  have hsame : carriedBy lanes' counts = carriedBy lanes counts := by
    funext laneIdx
    rw [carriedBy_idle (h.idle rfl), carriedBy_idle (h.idle rfl)]
  rw [hsame]
  exact h.image

/-- The end of the handshake starts what waits. -/
theorem half_established (hlanes : 0 < numLanes)
    (h : Half numLanes false lanes lengths ptrs counts x) :
    Half numLanes true lanes lengths ptrs counts (x.advanceAll (laneSteps numLanes true)) :=
  ⟨laneImage_established hlanes h.image, nofun⟩

end Half

end TpMpt
