import Mathlib.Tactic.Common
import Tensorpipe.CudaIpcPairProofs

/-! # What the cuda_ipc channel copies

    The copies are done on the devices, whenever their streams come to them: any execution of what
    was issued that keeps to the streams and the events.  What the copy of a chunk finds in the
    buffer of the user is then put in its slot, and what is in the slot when the copy at the other
    end is done goes to the other user.

    * What was put in a slot stays there until the reply to the chunk is read.
    * It is what the other end finds there, unless a sender stopped waiting for a reply that could
      still have come. -/

namespace TpCudaIpc

open TpStateMachine TpAllocator TpEventOrder

-- ── Memory ───────────────────────────────────────────────────────────────────

/-- Bytes by address. -/
abbrev Memory := Nat → UInt8

/-- The bytes at an address. -/
def load (m : Memory) (ptr length : Nat) : List UInt8 :=
  (List.range length).map (fun i => m (ptr + i))

/-- The memory with bytes put at an address. -/
def store (m : Memory) (ptr : Nat) (bytes : List UInt8) : Memory :=
  fun a => if ptr ≤ a then bytes[a - ptr]?.getD (m a) else m a

theorem length_load (m : Memory) (ptr length : Nat) : (load m ptr length).length = length := by
  rw [load, List.length_map, List.length_range]

/-- What was stored is loaded. -/
theorem load_store (m : Memory) (ptr : Nat) (bytes : List UInt8) :
    load (store m ptr bytes) ptr bytes.length = bytes := by
  refine List.ext_getElem (length_load ..) (fun i hi hlt => ?_)
  simp [load, store, hlt]

/-- What was stored elsewhere is not loaded. -/
theorem load_store_of_disjoint {m : Memory} {ptr ptr' length : Nat} {bytes : List UInt8}
    (h : ptr + bytes.length ≤ ptr' ∨ ptr' + length ≤ ptr) :
    load (store m ptr bytes) ptr' length = load m ptr' length := by
  refine List.map_congr_left (fun i hi => ?_)
  have hlt : i < length := List.mem_range.mp hi
  rw [store]
  split
  · rw [List.getElem?_eq_none (by omega)]
    rfl
  · rfl

-- ── What an execution leaves ─────────────────────────────────────────────────

/-- The copy into a slot that is the k-th command. -/
def Stage (issued : List CudaCommand) (k : Nat) (e : Endpoint) (tag : Tag) (slot : Slot) : Prop :=
  ∃ stream ptr, issued[k]? = some (.act stream (.stage e tag ptr slot))

/-- The copy out of a slot that is the k-th command. -/
def Fetch (issued : List CudaCommand) (k : Nat) (e : Endpoint) (tag : Tag) (slot : Slot) : Prop :=
  ∃ stream ptr, issued[k]? = some (.act stream (.fetch e tag ptr slot))

/-- What the copies into slots find in the buffers of the users when they are done: as many bytes
    as the chunk has. -/
def Sources (issued : List CudaCommand) (source : Nat → List UInt8) : Prop :=
  ∀ k e tag slot, Stage issued k e tag slot → (source k).length = tag.length

/-- The outboxes after what was done, the latest first. -/
def outboxMemory (m : MemHandle → Memory) (source : Nat → List UInt8)
    (issued : List CudaCommand) : List Nat → MemHandle → Memory
  | [], outbox => m outbox
  | k :: done, outbox =>
      let before := outboxMemory m source issued done outbox
      match written Transfer.target issued k with
      | some slot => if slot.1 = outbox then store before (kSlotSize * slot.2) (source k) else before
      | none => before

/-- What is in a slot, for a chunk of some length. -/
def slotContents (m : MemHandle → Memory) (source : Nat → List UInt8) (issued : List CudaCommand)
    (done : List Nat) (slot : Slot) (length : Nat) : List UInt8 :=
  load (outboxMemory m source issued done slot.1) (kSlotSize * slot.2) length

section Contents

variable {m : MemHandle → Memory} {source : Nat → List UInt8} {issued : List CudaCommand}
  {done : List Nat} {slot : Slot}

theorem stage_of_written {k : Nat} (h : written Transfer.target issued k = some slot) :
    ∃ e tag, Stage issued k e tag slot := by
  obtain ⟨a, ha, htarget⟩ := Option.bind_eq_some_iff.mp h
  obtain ⟨c, hc, haction⟩ := Option.bind_eq_some_iff.mp ha
  obtain ⟨stream, rfl⟩ := Command.action_eq_some.mp haction
  cases a with
  | stage e tag ptr target =>
      obtain rfl : target = slot := Option.some.inj htarget
      exact ⟨e, tag, stream, ptr, hc⟩
  | fetch => exact absurd htarget (by simp [Transfer.target])

theorem Stage.length_le (hsized : Sized issued) {k : Nat} {e : Endpoint} {tag : Tag}
    (h : Stage issued k e tag slot) : tag.length ≤ kSlotSize := by
  obtain ⟨stream, ptr, hk⟩ := h
  exact hsized _ (List.mem_of_getElem? hk) e tag ptr slot rfl

/-- Slots do not overlap. -/
theorem slotContents_ne (hsized : Sized issued) (hsources : Sources issued source) {k : Nat}
    {target : Slot} (hk : written Transfer.target issued k = some target) (hne : target ≠ slot)
    {length : Nat} (hlength : length ≤ kSlotSize) :
    slotContents m source issued (k :: done) slot length
      = slotContents m source issued done slot length := by
  obtain ⟨e, tag, hstage⟩ := stage_of_written hk
  have hsource : (source k).length ≤ kSlotSize :=
    Nat.le_trans (Nat.le_of_eq (hsources _ _ _ _ hstage)) (hstage.length_le hsized)
  rw [slotContents, slotContents, outboxMemory, hk]
  dsimp only
  split
  · next hsame =>
      -- the slots of one outbox are apart
      have hidx : target.2 ≠ slot.2 := fun heq => hne (Prod.ext hsame heq)
      refine load_store_of_disjoint ?_
      rcases Nat.lt_or_gt_of_ne hidx with hlt | hgt
      · have hmul := Nat.mul_le_mul_left kSlotSize (Nat.succ_le_of_lt hlt)
        rw [Nat.mul_succ] at hmul
        exact .inl (by omega)
      · have hmul := Nat.mul_le_mul_left kSlotSize (Nat.succ_le_of_lt hgt)
        rw [Nat.mul_succ] at hmul
        exact .inr (by omega)
  · rfl

/-- A slot holds what the latest copy into it found. -/
theorem slotContents_of_holder (hsized : Sized issued) (hsources : Sources issued source) {k : Nat}
    (hholder : holder Transfer.target issued slot done = some k) {e : Endpoint} {tag : Tag}
    (hstage : Stage issued k e tag slot) :
    slotContents m source issued done slot tag.length = source k := by
  induction done with
  | nil => exact absurd hholder (by simp [holder])
  | cons j done ih =>
      rw [holder] at hholder
      split at hholder
      · next hj =>
          obtain rfl : j = k := Option.some.inj hholder
          rw [slotContents, outboxMemory, hj]
          dsimp only
          rw [if_pos rfl, ← hsources _ _ _ _ hstage]
          exact load_store ..
      · next hj =>
          rw [← ih hholder]
          cases hwritten : written Transfer.target issued j with
          | none => rw [slotContents, outboxMemory, hwritten]; rfl
          | some target =>
              refine slotContents_ne hsized hsources hwritten (fun heq => hj ?_)
                (hstage.length_le hsized)
              rw [hwritten, heq]

/-- Bytes by which the copies into slots can be told apart. -/
def marks (issued : List CudaCommand) (k : Nat) : List UInt8 :=
  match issued[k]?.bind Command.action with
  | some (.stage _ tag _ _) => List.replicate tag.length (UInt8.ofNat k)
  | _ => []

theorem sources_marks (issued : List CudaCommand) : Sources issued (marks issued) := by
  rintro k e tag slot ⟨stream, ptr, hk⟩
  rw [marks, hk]
  exact List.length_replicate ..

end Contents

-- ── What the chunks become ───────────────────────────────────────────────────

section Runs

variable {S : Setup} {permitted : World → Event → Prop} {w : World}

/-- **A chunk that is copied is the chunk that was staged**, in every run in which no sender stops
    waiting for a reply that could still come, whatever else fails or is closed, and however the
    devices do what was issued.  Each chunk with a reply is copied. -/
theorem copied_is_staged (hdistinct : S.Distinct)
    (h : World.Reachable S (fun w event => event.Patient w) w) (e : Endpoint) :
    (∀ tag ∈ (w.channel e).recv.replies, ∃ j slot, Fetch w.issued j e tag slot)
    ∧ ∀ j tag slot, Fetch w.issued j e tag slot →
      ∀ done, Execution w.issued (j :: done) → ∀ m source, Sources w.issued source →
      ∃ k ∈ done, Stage w.issued k e.other tag slot
        ∧ slotContents m source w.issued done slot tag.length = source k := by
  have hw : WorldInv S True w := worldInv_of_reachable (fun _ => hdistinct)
    (fun _ w event hpatient => hpatient) h
  constructor
  · intro tag htag
    rw [(hw.recv e).inv.copied.replies] at htag
    obtain ⟨copy, hcopy, rfl⟩ := List.mem_map.mp htag
    obtain ⟨stream, hissued⟩ := hw.issued.copied e copy hcopy
    obtain ⟨j, hj⟩ := List.mem_iff_getElem?.mp hissued
    exact ⟨j, copy.slot, stream, copy.ptr, hj⟩
  · rintro j tag slot ⟨stream, ptr, hj⟩ done hexec m source hsources
    obtain ⟨ptr', hlatest⟩ := hw.issued.fetched trivial j stream e tag ptr slot hj
    obtain ⟨k, stream', hk, hdone, hholder⟩ :=
      hw.issued.bracketed.found Transfer.target_slot hexec hj rfl hlatest
    have hstage : Stage w.issued k e.other tag slot := ⟨stream', ptr', hk⟩
    exact ⟨k, hdone, hstage, slotContents_of_holder hw.issued.sized hsources hholder hstage⟩

theorem copied_is_staged_twoTensors : ∃ w,
    World.Reachable twoProcesses (fun w event => event.Patient w) w
    ∧ Execution w.issued [16, 15, 14, 13, 12, 8, 7, 6, 2, 1, 0]
    ∧ Fetch w.issued 16 ⟨0, true⟩ (chunkTag 2) (⟨0, 0⟩, 0)
    ∧ ∃ k ∈ [15, 14, 13, 12, 8, 7, 6, 2, 1, 0],
      Stage w.issued k ⟨0, false⟩ (chunkTag 2) (⟨0, 0⟩, 0)
      ∧ slotContents (fun _ _ => 0) (marks w.issued) w.issued [15, 14, 13, 12, 8, 7, 6, 2, 1, 0]
        (⟨0, 0⟩, 0) (chunkTag 2).length = marks w.issued k := by
  obtain ⟨w, hrun, -, -, -, -, -, -, -, -, hissued⟩ := twoTensors_run
  have hsides : ∀ a b : Bool, twoProcesses.processIdentifier (if a then 1 else 0)
      = twoProcesses.processIdentifier (if b then 1 else 0) →
      (if a then 1 else 0) = if b then 1 else 0 := by decide
  have hdistinct : twoProcesses.Distinct := fun e e' => hsides e.side e'.side
  have hexec : Execution w.issued [16, 15, 14, 13, 12, 8, 7, 6, 2, 1, 0] := by
    rw [hissued]
    decide +kernel
  have hfetch : Fetch w.issued 16 ⟨0, true⟩ (chunkTag 2) (⟨0, 0⟩, 0) := by
    rw [hissued]
    exact ⟨(1, 1), 8, rfl⟩
  have h := reachable_twoTensors hrun
  exact ⟨w, h, hexec, hfetch, (copied_is_staged hdistinct h ⟨0, true⟩).2 16 (chunkTag 2) _ hfetch
    _ hexec _ _ (sources_marks w.issued)⟩

-- the third chunk waits for the event of its slot until the first one was copied out of it
example : ¬ Execution issuedTwoTensors [12, 2, 1, 0] := by decide +kernel

/-- A sender closes, and its slot goes to another channel before the first one's peer copies. -/
def impatient : List Event :=
  [.send ⟨0, false⟩, .allocated 0 0, .close ⟨0, false⟩, .replyFailed ⟨0, false⟩ 0,
    .send ⟨1, false⟩, .allocated 0 1, .recv ⟨0, true⟩, .descriptorRead ⟨0, true⟩ 0]

example : (World.run twoProcesses (World.init twoProcesses) impatient).map
    (fun w => w.issued.filterMap Command.action)
      = some [.stage ⟨0, false⟩ (chunkTag 0) 0 (⟨0, 0⟩, 0),
        .stage ⟨1, false⟩ (chunkTag 0) 0 (⟨0, 0⟩, 0),
        .fetch ⟨0, true⟩ (chunkTag 0) 8 (⟨0, 0⟩, 0)] := by decide +kernel

end Runs

end TpCudaIpc
