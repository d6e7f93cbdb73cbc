import Mathlib.Data.List.Nodup
import Mathlib.Tactic.Common
import Tensorpipe.AllocatorProofs

/-! # Runs of the allocator

    Here the allocator has its memory: chunks are pointers into an area, a chunk is given back
    by its pointer, and the chunks that are out are counted.  Forgetting all this leaves the
    allocator of `AllocatorProofs` (`Pool.slots`), which fixes the order of the answers.

    A run is any sequence of requests, releases and closings.  Its callbacks do not call back
    into the allocator.  `Accounts` relates the bits and the counter to the chunks that are out,
    and `Settled` says that no request waits for a chunk that is there. -/

namespace TpAllocator

/-- The memory that the constructor is given. -/
structure Area where
  data : Nat
  numChunks : Nat
  chunkSize : Nat
  notNull : 0 < data
  nonempty : 0 < chunkSize

/-- The address of a chunk. -/
def Area.chunk (area : Area) (chunkId : Nat) : Nat := area.data + chunkId * area.chunkSize

theorem Area.chunk_injective (area : Area) : Function.Injective area.chunk := by
  intro j k h
  exact Nat.eq_of_mul_eq_mul_right area.nonempty (Nat.add_left_cancel h)

/-- The pointer of a chunk gives its index back. -/
theorem Area.chunkId_chunk (area : Area) (chunkId : Nat) :
    (area.chunk chunkId - area.data) / area.chunkSize = chunkId := by
  rw [Area.chunk, Nat.add_sub_cancel_left, Nat.mul_div_cancel _ area.nonempty]

/-- The slots of an area of memory, and the requests that wait for one. -/
structure Pool (Owner : Type) where
  area : Area
  chunkAvailable : List Bool
  allocatedChunks : Nat := 0
  pendingAllocations : List Owner := []
  closed : Bool := false
  dchecks : Bool := true

namespace Pool

variable {Owner : Type}

/-- A pool with all its slots free. -/
def make (area : Area) : Pool Owner :=
  { area := area, chunkAvailable := List.replicate area.numChunks true }

/-- Takes the first free slot. -/
def getAvailableChunk (p : Pool Owner) : Option (Nat × Pool Owner) :=
  match p.chunkAvailable.idxOf? true with
  | none => none
  | some curChunk =>
      some (p.area.chunk curChunk,
        { p with
          chunkAvailable := p.chunkAvailable.set curChunk false
          allocatedChunks := p.allocatedChunks + 1 })

/-- The loop of `processAllocations`, over the requests that are pending. -/
def processAllocationsLoop : List Owner → Pool Owner → Pool Owner × List (Answer Owner)
  | [], p => ({ p with pendingAllocations := [] }, [])
  | owner :: rest, p =>
      if p.closed then
        let y := processAllocationsLoop rest p
        (y.1, (owner, none) :: y.2)
      else
        match p.getAvailableChunk with
        | none => ({ p with pendingAllocations := owner :: rest }, [])
        | some (ptr, p') =>
            let y := processAllocationsLoop rest p'
            (y.1, (owner, some ptr) :: y.2)

/-- Answers the requests that wait, as far as there are slots. -/
def processAllocations (p : Pool Owner) : Pool Owner × List (Answer Owner) :=
  processAllocationsLoop p.pendingAllocations p

/-- A request for a slot. -/
def alloc (size : Nat) (owner : Owner) (p : Pool Owner) : Pool Owner × List (Answer Owner) :=
  processAllocations
    { p with
      dchecks := p.dchecks && decide (size ≤ p.area.chunkSize)
      pendingAllocations := p.pendingAllocations ++ [owner] }

/-- Closes the pool, which refuses all that waits. -/
def close (p : Pool Owner) : Pool Owner × List (Answer Owner) :=
  if p.closed then (p, []) else processAllocations { p with closed := true }

/-- Gives a slot back, by its address. -/
def releaseChunk (ptr : Nat) (p : Pool Owner) : Pool Owner × List (Answer Owner) :=
  let chunkId := (ptr - p.area.data) / p.area.chunkSize
  processAllocations
    { p with
      chunkAvailable := p.chunkAvailable.set chunkId true
      allocatedChunks := p.allocatedChunks - 1 }

-- ── The allocator without its memory ─────────────────────────────────────────

/-- The pool without its memory. -/
def slots (p : Pool Owner) : Allocator Owner :=
  ⟨p.chunkAvailable, p.pendingAllocations, p.closed⟩

/-- The loop answers the same requests, with the pointers of the same chunks. -/
theorem slots_processAllocationsLoop (pending : List Owner) :
    ∀ p : Pool Owner,
      (processAllocationsLoop pending p).1.slots
          = (Allocator.processAllocationsLoop pending p.slots).1
        ∧ (processAllocationsLoop pending p).1.area = p.area
        ∧ (processAllocationsLoop pending p).2
          = (Allocator.processAllocationsLoop pending p.slots).2.map
              (fun answer => (answer.1, answer.2.map p.area.chunk)) := by
  induction pending with
  | nil => intro p; exact ⟨rfl, rfl, rfl⟩
  | cons owner rest ih =>
      intro p
      rw [processAllocationsLoop, Allocator.processAllocationsLoop]
      by_cases hclosed : p.closed = true
      · rw [if_pos hclosed, if_pos (show p.slots.closed = true from hclosed)]
        obtain ⟨hslots, harea, hanswers⟩ := ih p
        exact ⟨hslots, harea, congrArg ((owner, none) :: ·) hanswers⟩
      · rw [if_neg hclosed, if_neg (show ¬ p.slots.closed = true from hclosed),
          getAvailableChunk, Allocator.getAvailableChunk]
        cases hidx : p.chunkAvailable.idxOf? true with
        | none =>
            rw [show p.slots.chunkAvailable.idxOf? true = none from hidx]
            exact ⟨rfl, rfl, rfl⟩
        | some curChunk =>
            rw [show p.slots.chunkAvailable.idxOf? true = some curChunk from hidx]
            obtain ⟨hslots, harea, hanswers⟩ := ih { p with
              chunkAvailable := p.chunkAvailable.set curChunk false
              allocatedChunks := p.allocatedChunks + 1 }
            exact ⟨hslots, harea, congrArg ((owner, some (p.area.chunk curChunk)) :: ·) hanswers⟩

/-- The answers and what is left of the deque are the deque. -/
theorem processAllocationsLoop_fifo (pending : List Owner) (p : Pool Owner) :
    (processAllocationsLoop pending p).2.map Prod.fst
      ++ (processAllocationsLoop pending p).1.pendingAllocations = pending := by
  obtain ⟨hslots, -, hanswers⟩ := slots_processAllocationsLoop pending p
  have hfifo := Allocator.processAllocationsLoop_fifo pending p.slots
  rw [← hslots] at hfifo
  rw [hanswers, List.map_map]
  exact hfifo

/-- Whether the answers are errors depends on whether the allocator is closed. -/
theorem processAllocationsLoop_closed (pending : List Owner) (p : Pool Owner) :
    (processAllocationsLoop pending p).1.closed = p.closed
      ∧ ∀ answer ∈ (processAllocationsLoop pending p).2, answer.2 = none ↔ p.closed = true := by
  obtain ⟨hslots, -, hanswers⟩ := slots_processAllocationsLoop pending p
  obtain ⟨hsame, herrors⟩ := Allocator.processAllocationsLoop_closed pending p.slots
  rw [← hslots] at hsame
  refine ⟨hsame, fun answer hmem => ?_⟩
  rw [hanswers] at hmem
  obtain ⟨y, hy, rfl⟩ := List.mem_map.mp hmem
  exact Option.map_eq_none_iff.trans (herrors y hy)

-- ── The chunks that are out ──────────────────────────────────────────────────

/-- The bits and the counter account for the chunks that are out: distinct chunks of the area,
    the ones that are not available, and as many as are counted. -/
structure Accounts (p : Pool Owner) (held : List Nat) : Prop where
  length : p.chunkAvailable.length = p.area.numChunks
  nodup : held.Nodup
  aligned : ∀ ptr ∈ held, ∃ chunkId < p.area.numChunks, ptr = p.area.chunk chunkId
  taken : ∀ chunkId < p.area.numChunks,
    p.chunkAvailable[chunkId]? = some false ↔ p.area.chunk chunkId ∈ held
  count : p.allocatedChunks = held.length

theorem accounts_make (area : Area) : Accounts (make area : Pool Owner) [] := by
  refine ⟨List.length_replicate, List.nodup_nil, nofun, fun chunkId hlt => ?_, rfl⟩
  have havail : (make area : Pool Owner).chunkAvailable[chunkId]? = some true :=
    List.getElem?_replicate_of_lt hlt
  rw [havail]
  exact ⟨nofun, nofun⟩

theorem getAvailableChunk_spec {p p' : Pool Owner} {ptr : Nat}
    (h : p.getAvailableChunk = some (ptr, p')) :
    ∃ chunkId, p.chunkAvailable[chunkId]? = some true ∧ ptr = p.area.chunk chunkId
      ∧ p' = { p with
        chunkAvailable := p.chunkAvailable.set chunkId false
        allocatedChunks := p.allocatedChunks + 1 } := by
  rw [getAvailableChunk] at h
  cases hidx : p.chunkAvailable.idxOf? true with
  | none => rw [hidx] at h; exact nomatch h
  | some curChunk =>
      rw [hidx] at h
      obtain ⟨rfl, rfl⟩ := Prod.mk.inj (Option.some.inj h)
      have hslots : p.slots.getAvailableChunk = some (curChunk, { p.slots with
          chunkAvailable := p.chunkAvailable.set curChunk false }) := by
        rw [Allocator.getAvailableChunk, show p.slots.chunkAvailable.idxOf? true = _ from hidx]
        rfl
      exact ⟨curChunk, (Allocator.getAvailableChunk_spec hslots).1, rfl, rfl⟩

/-- There is no chunk only if none is available. -/
theorem getAvailableChunk_none {p : Pool Owner} (h : p.getAvailableChunk = none)
    (hlen : p.chunkAvailable.length = p.area.numChunks) {chunkId : Nat}
    (hlt : chunkId < p.area.numChunks) : p.chunkAvailable[chunkId]? = some false := by
  rw [getAvailableChunk] at h
  cases hidx : p.chunkAvailable.idxOf? true with
  | some curChunk => rw [hidx] at h; exact nomatch h
  | none =>
      have hnone := List.idxOf?_eq_none_iff.mp hidx
      have hin : chunkId < p.chunkAvailable.length := by omega
      rw [List.getElem?_eq_getElem hin]
      cases hbit : p.chunkAvailable[chunkId] with
      | false => rfl
      | true => exact absurd (hbit ▸ List.getElem_mem hin) hnone

/-- Granting a chunk. -/
theorem Accounts.grant {p p' : Pool Owner} {held : List Nat} {ptr : Nat} (h : Accounts p held)
    (hget : p.getAvailableChunk = some (ptr, p')) : Accounts p' (held ++ [ptr]) := by
  obtain ⟨chunkId, havail, rfl, rfl⟩ := getAvailableChunk_spec hget
  have hlt : chunkId < p.chunkAvailable.length := (List.getElem?_eq_some_iff.mp havail).1
  have hin : chunkId < p.area.numChunks := h.length ▸ hlt
  have hnew : p.area.chunk chunkId ∉ held := by
    intro hmem
    exact nomatch havail.symm.trans ((h.taken chunkId hin).mpr hmem)
  constructor
  · exact (List.length_set).trans h.length
  · exact List.nodup_append.mpr ⟨h.nodup, List.nodup_singleton _, fun a ha b hb hab =>
      hnew (List.mem_singleton.mp hb ▸ hab ▸ ha)⟩
  · intro ptr hmem
    rcases List.mem_append.mp hmem with hold | hlast
    · exact h.aligned ptr hold
    · exact ⟨chunkId, hin, List.mem_singleton.mp hlast⟩
  · intro k hk
    rw [List.mem_append, List.mem_singleton, p.area.chunk_injective.eq_iff]
    by_cases hsame : k = chunkId
    · rw [hsame, List.getElem?_set_self hlt]
      exact ⟨fun _ => Or.inr rfl, fun _ => rfl⟩
    · rw [List.getElem?_set_ne (Ne.symm hsame), h.taken k hk]
      exact ⟨Or.inl, fun hor => hor.resolve_right hsame⟩
  · rw [List.length_append, List.length_singleton, ← h.count]

/-- Giving a chunk back. -/
theorem Accounts.release {p : Pool Owner} {held : List Nat} {ptr : Nat} (h : Accounts p held)
    (hptr : ptr ∈ held) :
    Accounts { p with
      chunkAvailable := p.chunkAvailable.set ((ptr - p.area.data) / p.area.chunkSize) true
      allocatedChunks := p.allocatedChunks - 1 } (held.erase ptr) := by
  obtain ⟨chunkId, hin, rfl⟩ := h.aligned ptr hptr
  rw [Area.chunkId_chunk]
  have hlt : chunkId < p.chunkAvailable.length := h.length.symm ▸ hin
  constructor
  · exact (List.length_set).trans h.length
  · exact h.nodup.erase _
  · intro ptr hmem
    exact h.aligned ptr (List.mem_of_mem_erase hmem)
  · intro k hk
    rw [h.nodup.mem_erase_iff, ne_eq, p.area.chunk_injective.eq_iff]
    by_cases hsame : k = chunkId
    · rw [hsame, List.getElem?_set_self hlt]
      exact ⟨nofun, fun hand => absurd rfl hand.1⟩
    · rw [List.getElem?_set_ne (Ne.symm hsame), h.taken k hk]
      exact ⟨fun hmem => ⟨hsame, hmem⟩, And.right⟩
  · rw [List.length_erase_of_mem hptr, h.count]

/-- Nothing waits that could be answered. -/
structure Settled (p : Pool Owner) : Prop where
  closed : p.closed = true → p.pendingAllocations = []
  opened : p.closed = false → p.pendingAllocations ≠ [] →
    ∀ chunkId < p.area.numChunks, p.chunkAvailable[chunkId]? = some false

/-- **The loop.**  It accounts for the chunks that it grants, and stops only when there is
    nothing left to answer or to answer with. -/
theorem processAllocationsLoop_spec (pending : List Owner) :
    ∀ {p : Pool Owner} {held : List Nat}, Accounts p held →
      Accounts (processAllocationsLoop pending p).1
          (held ++ Allocator.granted (processAllocationsLoop pending p).2)
        ∧ Settled (processAllocationsLoop pending p).1 := by
  induction pending with
  | nil =>
      intro p held h
      rw [processAllocationsLoop, Allocator.granted, List.filterMap_nil, List.append_nil]
      exact ⟨⟨h.length, h.nodup, h.aligned, h.taken, h.count⟩, fun _ => rfl,
        fun _ hne => absurd rfl hne⟩
  | cons owner rest ih =>
      intro p held h
      rw [processAllocationsLoop]
      by_cases hclosed : p.closed = true
      · rw [if_pos hclosed]
        exact ih h
      · rw [if_neg hclosed]
        cases hget : p.getAvailableChunk with
        | none =>
            rw [Allocator.granted, List.filterMap_nil, List.append_nil]
            exact ⟨⟨h.length, h.nodup, h.aligned, h.taken, h.count⟩,
              fun hyes => absurd hyes hclosed,
              fun _ _ chunkId hlt => getAvailableChunk_none hget h.length hlt⟩
        | some y =>
            obtain ⟨haccounts, hsettled⟩ := ih (h.grant hget)
            rw [List.append_assoc] at haccounts
            exact ⟨haccounts, hsettled⟩

end Pool

-- ── Runs ─────────────────────────────────────────────────────────────────────

/-- What the users of an allocator do.  A chunk is released when the last of them drops it. -/
inductive Event (Owner : Type) where
  | alloc (size : Nat) (owner : Owner)
  | close
  | release (ptr : Nat)
deriving DecidableEq, Repr

/-- An allocator with its history: the requests, the callbacks that were invoked, and the chunks
    that were granted and are not released. -/
structure System (Owner : Type) where
  pool : Pool Owner
  asked : List Owner := []
  answers : List (Answer Owner) := []
  held : List Nat := []

namespace System

variable {Owner : Type}

/-- A pool and its users, before the first request. -/
def make (area : Area) : System Owner := { pool := Pool.make area }

/-- What a call into the allocator leaves, with the callbacks it invoked. -/
def called (s : System Owner) (y : Pool Owner × List (Answer Owner)) : System Owner :=
  { s with
    pool := y.1
    answers := s.answers ++ y.2
    held := s.held ++ Allocator.granted y.2 }

/-- One call of a user. -/
def step (s : System Owner) : Event Owner → Option (System Owner)
  | .alloc size owner => some ({ s with asked := s.asked ++ [owner] }.called (s.pool.alloc size owner))
  | .close => some (s.called s.pool.close)
  | .release ptr =>
      if ptr ∈ s.held then
        some ({ s with held := s.held.erase ptr }.called (s.pool.releaseChunk ptr))
      else none

/-- Calls of the users, one after the other. -/
def run (s : System Owner) (events : List (Event Owner)) : Option (System Owner) :=
  events.foldlM step s

/-- What holds between any two calls. -/
structure Fair (s : System Owner) : Prop where
  order : s.answers.map Prod.fst ++ s.pool.pendingAllocations = s.asked
  accounts : s.pool.Accounts s.held
  settled : s.pool.Settled
  granted : s.pool.closed = false → ∀ answer ∈ s.answers, answer.2 ≠ none

theorem fair_make (area : Area) : Fair (make area : System Owner) :=
  ⟨rfl, Pool.accounts_make area, ⟨fun _ => rfl, fun _ hne => absurd rfl hne⟩, fun _ => nofun⟩

/-- Every call ends in the loop: `p` is the allocator as the loop finds it. -/
theorem Fair.called {s : System Owner} {p : Pool Owner}
    (horder : s.answers.map Prod.fst ++ p.pendingAllocations = s.asked)
    (haccounts : p.Accounts s.held)
    (hgranted : p.closed = false → ∀ answer ∈ s.answers, answer.2 ≠ none) :
    Fair (s.called p.processAllocations) := by
  have hfifo := Pool.processAllocationsLoop_fifo p.pendingAllocations p
  obtain ⟨hsame, herrors⟩ := Pool.processAllocationsLoop_closed p.pendingAllocations p
  obtain ⟨haccounts', hsettled⟩ := Pool.processAllocationsLoop_spec p.pendingAllocations haccounts
  refine ⟨?_, haccounts', hsettled, fun hopen answer hmem => ?_⟩
  · show (s.answers ++ _).map Prod.fst ++ _ = s.asked
    rw [List.map_append, List.append_assoc]
    exact (congrArg _ hfifo).trans horder
  · have hopen' : p.closed = false := hsame ▸ hopen
    rcases List.mem_append.mp hmem with hold | hnew
    · exact hgranted hopen' answer hold
    · intro hnone
      rw [(herrors answer hnew).mp hnone] at hopen'
      exact nomatch hopen'

/-- **One call.** -/
theorem Fair.step {s s' : System Owner} {e : Event Owner} (h : Fair s) (hstep : s.step e = some s') :
    Fair s' := by
  cases e with
  | alloc size owner =>
      obtain rfl := Option.some.inj hstep
      refine Fair.called ?_ ⟨h.accounts.length, h.accounts.nodup, h.accounts.aligned,
        h.accounts.taken, h.accounts.count⟩ h.granted
      show s.answers.map Prod.fst ++ (s.pool.pendingAllocations ++ [owner]) = s.asked ++ [owner]
      rw [← List.append_assoc, h.order]
  | close =>
      obtain rfl := Option.some.inj hstep
      rw [Pool.close]
      by_cases hclosed : s.pool.closed = true
      · rw [if_pos hclosed]
        have hnothing : s.called (s.pool, []) = s := by
          simp only [System.called, Allocator.granted, List.filterMap_nil, List.append_nil]
        rw [hnothing]
        exact h
      · rw [if_neg hclosed]
        exact Fair.called h.order ⟨h.accounts.length, h.accounts.nodup, h.accounts.aligned,
          h.accounts.taken, h.accounts.count⟩ (fun hno => absurd hno (by simp))
  | release ptr =>
      rw [System.step] at hstep
      by_cases hptr : ptr ∈ s.held
      · rw [if_pos hptr] at hstep
        obtain rfl := Option.some.inj hstep
        exact Fair.called h.order (h.accounts.release hptr) h.granted
      · rw [if_neg hptr] at hstep
        exact absurd hstep (by simp)

theorem Fair.run {s s' : System Owner} {events : List (Event Owner)} (h : Fair s)
    (hrun : s.run events = some s') : Fair s' := by
  induction events generalizing s with
  | nil =>
      obtain rfl := Option.some.inj hrun
      exact h
  | cons e rest ih =>
      rw [System.run, List.foldlM_cons] at hrun
      obtain ⟨s₁, hstep, hrest⟩ := Option.bind_eq_some_iff.mp hrun
      exact ih (h.step hstep) hrest

-- ── After the closing ────────────────────────────────────────────────────────

/-- The requests among some events. -/
def requests : List (Event Owner) → List Owner
  | [] => []
  | .alloc _ owner :: rest => owner :: requests rest
  | .close :: rest => requests rest
  | .release _ :: rest => requests rest

/-- A call into a closed allocator answers its request, if it is one, with an error. -/
theorem step_closed {s s' : System Owner} {e : Event Owner} (h : Fair s)
    (hclosed : s.pool.closed = true) (hstep : s.step e = some s') :
    s'.pool.closed = true
      ∧ s'.answers = s.answers ++ (requests [e]).map (fun owner => (owner, none)) := by
  have hnone := h.settled.closed hclosed
  cases e with
  | alloc size owner =>
      obtain rfl := Option.some.inj hstep
      rw [called, Pool.alloc, Pool.processAllocations, hnone, List.nil_append,
        Pool.processAllocationsLoop, if_pos hclosed]
      exact ⟨hclosed, rfl⟩
  | close =>
      obtain rfl := Option.some.inj hstep
      rw [called, Pool.close, if_pos hclosed]
      exact ⟨hclosed, rfl⟩
  | release ptr =>
      rw [step] at hstep
      by_cases hptr : ptr ∈ s.held
      · rw [if_pos hptr] at hstep
        obtain rfl := Option.some.inj hstep
        rw [called, Pool.releaseChunk, Pool.processAllocations, hnone]
        exact ⟨hclosed, rfl⟩
      · rw [if_neg hptr] at hstep
        exact nomatch hstep

theorem run_closed {s s' : System Owner} {events : List (Event Owner)} (h : Fair s)
    (hclosed : s.pool.closed = true) (hrun : s.run events = some s') :
    s'.pool.closed = true
      ∧ s'.answers = s.answers ++ (requests events).map (fun owner => (owner, none)) := by
  induction events generalizing s with
  | nil =>
      obtain rfl := Option.some.inj hrun
      exact ⟨hclosed, (List.append_nil _).symm⟩
  | cons e rest ih =>
      rw [run, List.foldlM_cons] at hrun
      obtain ⟨s₁, hstep, hrest⟩ := Option.bind_eq_some_iff.mp hrun
      obtain ⟨hclosed₁, hanswers₁⟩ := step_closed h hclosed hstep
      obtain ⟨hclosed', hanswers'⟩ := ih (h.step hstep) hclosed₁ hrest
      refine ⟨hclosed', ?_⟩
      rw [hanswers', hanswers₁, List.append_assoc, ← List.map_append]
      cases e <;> rfl

/-- Closing answers whatever is pending with an error. -/
theorem close_answers {s : System Owner} (hopen : s.pool.closed = false) :
    (s.called s.pool.close).pool.closed = true
      ∧ (s.called s.pool.close).answers
        = s.answers ++ s.pool.pendingAllocations.map (fun owner => (owner, none)) := by
  have hloop : ∀ (pending : List Owner) (p : Pool Owner), p.closed = true →
      (Pool.processAllocationsLoop pending p).1.closed = true
        ∧ (Pool.processAllocationsLoop pending p).2 = pending.map (fun owner => (owner, none)) := by
    intro pending
    induction pending with
    | nil => intro p hclosed; exact ⟨hclosed, rfl⟩
    | cons owner rest ih =>
        intro p hclosed
        obtain ⟨hstill, hrest⟩ := ih p hclosed
        rw [Pool.processAllocationsLoop, if_pos hclosed]
        exact ⟨hstill, congrArg ((owner, none) :: ·) hrest⟩
  rw [called, Pool.close, if_neg (hopen ▸ Bool.false_ne_true), Pool.processAllocations]
  obtain ⟨hclosed, hanswers⟩ := hloop s.pool.pendingAllocations { s.pool with closed := true } rfl
  exact ⟨hclosed, congrArg (s.answers ++ ·) hanswers⟩

/-- **The allocator is fair, and loses nothing.**  In any run the callbacks are invoked once
    each and in the order of the requests, the chunks that are out are distinct chunks of the
    area, accounted for by the bits and the counter, and no request waits for a chunk that is
    there.  From the closing on, what was pending and what still comes is answered with an
    error, and only that. -/
theorem allocator_fair (area : Area) {events : List (Event Owner)} {s : System Owner}
    (hrun : (make area).run events = some s) :
    Fair s ∧ ∀ (before after : List (Event Owner)) (s₁ : System Owner),
      events = before ++ .close :: after → (make area).run before = some s₁ →
      s₁.pool.closed = false →
      s.pool.pendingAllocations = [] ∧ (∀ answer ∈ s₁.answers, answer.2 ≠ none)
        ∧ s.answers = s₁.answers
          ++ (s₁.pool.pendingAllocations ++ requests after).map (fun owner => (owner, none)) := by
  have hfair := (fair_make area).run hrun
  refine ⟨hfair, fun before after s₁ hevents hbefore hopen => ?_⟩
  have hfair₁ := (fair_make area).run hbefore
  subst hevents
  rw [run, List.foldlM_append] at hrun
  obtain ⟨s₁', hbefore', hclose⟩ := Option.bind_eq_some_iff.mp hrun
  obtain rfl : s₁' = s₁ := Option.some.inj (hbefore'.symm.trans hbefore)
  rw [List.foldlM_cons] at hclose
  obtain ⟨s₂, hstep, hafter⟩ := Option.bind_eq_some_iff.mp hclose
  obtain rfl := Option.some.inj hstep
  obtain ⟨hclosed, hanswers⟩ := close_answers hopen
  obtain ⟨hstill, hrest⟩ := run_closed (hfair₁.step hstep) hclosed hafter
  refine ⟨hfair.settled.closed hstill, hfair₁.granted hopen, ?_⟩
  rw [hrest, hanswers, List.append_assoc, ← List.map_append]

/-- One chunk and three requests: the second waits for the release, the third comes too late. -/
theorem allocator_fair_of_one_chunk :
    ∃ s : System Nat, Fair s ∧ s.answers = [(0, some 8), (1, some 8), (2, none)] := by
  let area : Area := ⟨8, 1, 4, by decide, by decide⟩
  let events : List (Event Nat) := [.alloc 4 0, .alloc 4 1, .release 8, .close, .alloc 4 2]
  have hruns : ((make area).run events).isSome = true := by decide
  obtain ⟨s, hrun⟩ := Option.isSome_iff_exists.mp hruns
  refine ⟨s, (allocator_fair area hrun).1, ?_⟩
  have hanswers : ((make area).run events).map System.answers
      = some [(0, some 8), (1, some 8), (2, none)] := by decide
  rw [hrun] at hanswers
  exact Option.some.inj hanswers

end System

end TpAllocator
