import Mathlib.Data.List.Nodup
import Mathlib.Tactic.Common

/-! # The allocator of staging slots

    An allocator owns some memory, cut in chunks of one size.  Requests wait in a deque and
    are answered from its front, with a chunk as long as there is one available; once the
    allocator is closed, with an error.

    Answers come in the order of the requests, and no chunk is in two hands. -/

namespace TpAllocator

/-- A request is known by its owner. -/
structure Allocator (Owner : Type) where
  chunkAvailable : List Bool
  pendingAllocations : List Owner := []
  closed : Bool := false
deriving DecidableEq, Repr

/-- A callback that was invoked: with a chunk, or with an error and no chunk. -/
abbrev Answer (Owner : Type) := Owner × Option Nat

namespace Allocator

variable {Owner : Type}

/-- An allocator with all its slots free. -/
def make (numChunks : Nat) : Allocator Owner :=
  { chunkAvailable := List.replicate numChunks true }

/-- Takes the first free slot. -/
def getAvailableChunk (a : Allocator Owner) : Option (Nat × Allocator Owner) :=
  match a.chunkAvailable.idxOf? true with
  | none => none
  | some curChunk =>
      some (curChunk, { a with chunkAvailable := a.chunkAvailable.set curChunk false })

/-- The loop of `processAllocations`, over the requests that are pending. -/
def processAllocationsLoop : List Owner → Allocator Owner → Allocator Owner × List (Answer Owner)
  | [], a => ({ a with pendingAllocations := [] }, [])
  | owner :: rest, a =>
      if a.closed then
        let y := processAllocationsLoop rest a
        (y.1, (owner, none) :: y.2)
      else
        match a.getAvailableChunk with
        | none => ({ a with pendingAllocations := owner :: rest }, [])
        | some (chunk, a') =>
            let y := processAllocationsLoop rest a'
            (y.1, (owner, some chunk) :: y.2)

/-- Answers the requests that wait, as far as there are slots. -/
def processAllocations (a : Allocator Owner) : Allocator Owner × List (Answer Owner) :=
  processAllocationsLoop a.pendingAllocations a

/-- A request for a slot. -/
def alloc (owner : Owner) (a : Allocator Owner) : Allocator Owner × List (Answer Owner) :=
  processAllocations { a with pendingAllocations := a.pendingAllocations ++ [owner] }

/-- Closes the allocator, which refuses all that waits. -/
def close (a : Allocator Owner) : Allocator Owner × List (Answer Owner) :=
  if a.closed then (a, [])
  else processAllocations { a with closed := true }

/-- Gives a slot back. -/
def releaseChunk (chunkId : Nat) (a : Allocator Owner) : Allocator Owner × List (Answer Owner) :=
  processAllocations { a with chunkAvailable := a.chunkAvailable.set chunkId true }

-- ── First come, first served ─────────────────────────────────────────────────

theorem getAvailableChunk_spec {a a' : Allocator Owner} {chunk : Nat}
    (h : a.getAvailableChunk = some (chunk, a')) :
    a.chunkAvailable[chunk]? = some true
      ∧ a' = { a with chunkAvailable := a.chunkAvailable.set chunk false } := by
  rw [getAvailableChunk] at h
  cases hidx : a.chunkAvailable.idxOf? true with
  | none => rw [hidx] at h; exact nomatch h
  | some i =>
      rw [hidx] at h
      obtain ⟨rfl, rfl⟩ := Prod.mk.inj (Option.some.inj h)
      refine ⟨?_, rfl⟩
      obtain ⟨hlt, heq, -⟩ := List.findIdx?_eq_some_iff_getElem.mp hidx
      rw [List.getElem?_eq_getElem hlt]
      exact congrArg some (beq_iff_eq.mp heq)

/-- The answers and what is left of the deque are the deque. -/
theorem processAllocationsLoop_fifo (pending : List Owner) :
    ∀ a : Allocator Owner, (processAllocationsLoop pending a).2.map Prod.fst
      ++ (processAllocationsLoop pending a).1.pendingAllocations = pending := by
  induction pending with
  | nil => intro a; rfl
  | cons owner rest ih =>
      intro a
      rw [processAllocationsLoop]
      by_cases hclosed : a.closed = true
      · rw [if_pos hclosed]
        exact congrArg (owner :: ·) (ih a)
      · rw [if_neg hclosed]
        cases hget : a.getAvailableChunk with
        | none => rfl
        | some y => exact congrArg (owner :: ·) (ih y.2)

theorem processAllocationsLoop_closed (pending : List Owner) :
    ∀ a : Allocator Owner, (processAllocationsLoop pending a).1.closed = a.closed
      ∧ ∀ answer ∈ (processAllocationsLoop pending a).2, answer.2 = none ↔ a.closed = true := by
  induction pending with
  | nil => intro a; exact ⟨rfl, nofun⟩
  | cons owner rest ih =>
      intro a
      rw [processAllocationsLoop]
      by_cases hclosed : a.closed = true
      · rw [if_pos hclosed]
        refine ⟨(ih a).1, fun answer hmem => ?_⟩
        rcases List.mem_cons.mp hmem with rfl | hrest
        · exact ⟨fun _ => hclosed, fun _ => rfl⟩
        · exact (ih a).2 answer hrest
      · rw [if_neg hclosed]
        cases hget : a.getAvailableChunk with
        | none => exact ⟨rfl, nofun⟩
        | some y =>
            obtain ⟨-, heq⟩ := getAvailableChunk_spec hget
            have hsame : y.2.closed = a.closed := by rw [heq]
            refine ⟨(ih y.2).1.trans hsame, fun answer hmem => ?_⟩
            rcases List.mem_cons.mp hmem with rfl | hrest
            · exact ⟨fun hnone => (nomatch hnone), fun hyes => absurd hyes hclosed⟩
            · rw [← hsame]
              exact (ih y.2).2 answer hrest

-- ── One chunk, one hand ──────────────────────────────────────────────────────

/-- The chunks in the hands of the owners are distinct, and not available. -/
structure Held (a : Allocator Owner) (held : List Nat) : Prop where
  nodup : held.Nodup
  taken : ∀ chunk ∈ held, a.chunkAvailable[chunk]? = some false

theorem held_make (numChunks : Nat) : Held (make numChunks : Allocator Owner) [] :=
  ⟨List.nodup_nil, nofun⟩

/-- The chunks of some answers. -/
def granted (answers : List (Answer Owner)) : List Nat := answers.filterMap Prod.snd

theorem held_processAllocationsLoop (pending : List Owner) :
    ∀ {a : Allocator Owner} {held : List Nat}, Held a held →
      Held (processAllocationsLoop pending a).1
        (held ++ granted (processAllocationsLoop pending a).2) := by
  induction pending with
  | nil =>
      intro a held h
      rw [processAllocationsLoop, granted, List.filterMap_nil, List.append_nil]
      exact ⟨h.nodup, h.taken⟩
  | cons owner rest ih =>
      intro a held h
      rw [processAllocationsLoop]
      by_cases hclosed : a.closed = true
      · rw [if_pos hclosed]
        exact ih h
      · rw [if_neg hclosed]
        cases hget : a.getAvailableChunk with
        | none =>
            rw [granted, List.filterMap_nil, List.append_nil]
            exact ⟨h.nodup, h.taken⟩
        | some y =>
            obtain ⟨havail, heq⟩ := getAvailableChunk_spec hget
            have hnew : y.1 ∉ held := by
              intro hmem
              exact nomatch havail.symm.trans (h.taken _ hmem)
            have htaken : Held y.2 (held ++ [y.1]) := by
              refine ⟨List.nodup_append.mpr ⟨h.nodup, List.nodup_singleton _, ?_⟩, ?_⟩
              · rintro c hc c' hc' rfl
                rw [List.mem_singleton.mp hc'] at hc
                exact hnew hc
              · intro c hc
                rw [heq]
                have hlt : y.1 < a.chunkAvailable.length := (List.getElem?_eq_some_iff.mp havail).1
                by_cases hsame : c = y.1
                · rw [hsame]
                  exact List.getElem?_set_self hlt
                · rw [List.getElem?_set_ne (Ne.symm hsame)]
                  rcases List.mem_append.mp hc with hold | hlast
                  · exact h.taken c hold
                  · exact absurd (List.mem_singleton.mp hlast) hsame
            have hrest := ih htaken
            rw [List.append_assoc] at hrest
            exact hrest

end Allocator

end TpAllocator
