import Mathlib.Data.List.Basic
import Mathlib.Tactic.Common

/-! # Polling CUDA events — one pass over a list that it erases from

    The context of cuda_gdr keeps the CUDA events that it waits for in a list, and every round of
    its loop visits them: an event that is ready is taken out and its callback is called.

    `erase` returns the iterator to the next entry, and the loop then advances it once more.  So
    the entry behind a ready one is not visited, and behind a ready last one the iterator leaves
    the list.

    The idea of the proofs: whether that does harm depends on neighbours only (`EachFollowed`),
    and a pass in which it does has called back fewer entries than are ready. -/

namespace TpCudaGdr

-- ── The pass ─────────────────────────────────────────────────────────────────

/-- An entry of `pendingCudaEvents_`; event and callback stand for their identities. -/
structure PendingCudaEvent where
  event : Nat
  cb : Nat
deriving DecidableEq, Repr

/-- The list after a pass, the entries whose callback it called, and what it returned. -/
structure CudaPoll where
  pendingCudaEvents : List PendingCudaEvent
  called : List PendingCudaEvent := []
  any : Bool := false
deriving DecidableEq, Repr

/-- The loop, with the entries before the iterator and those from it on.  `none` stands for an
    iterator that is advanced past the end. -/
def pollCudaOnceLoop (query : Nat → Bool) :
    List PendingCudaEvent → List PendingCudaEvent → List PendingCudaEvent → Bool → Option CudaPoll
  | visited, [], called, any => some { pendingCudaEvents := visited, called, any }
  | visited, entry :: rest, called, any =>
      if query entry.event then
        -- the iterator returned by `erase` is advanced like any other
        match rest with
        | [] => none
        | next :: rest => pollCudaOnceLoop query (visited ++ [next]) rest (called ++ [entry]) true
      else pollCudaOnceLoop query (visited ++ [entry]) rest called any

/-- One round over the events that are pending. -/
def pollCudaOnce (query : Nat → Bool) (pendingCudaEvents : List PendingCudaEvent) :
    Option CudaPoll :=
  pollCudaOnceLoop query [] pendingCudaEvents [] false

-- ── Neighbours ───────────────────────────────────────────────────────────────

section Pass

variable {query : Nat → Bool}

/-- An entry of the list is ready. -/
def Ready (query : Nat → Bool) (entry : PendingCudaEvent) : Bool := query entry.event

/-- Right behind every entry that is ready there is one that is not. -/
def EachFollowed (query : Nat → Bool) (events : List PendingCudaEvent) : Prop :=
  ∀ before entry after, events = before ++ entry :: after → Ready query entry = true →
    ∃ next rest, after = next :: rest ∧ Ready query next = false

theorem eachFollowed_nil : EachFollowed query [] := by
  intro before entry after hsplit
  exact absurd hsplit.symm (List.append_ne_nil_of_right_ne_nil before (List.cons_ne_nil entry after))

theorem eachFollowed_cons {entry : PendingCudaEvent} {rest : List PendingCudaEvent} :
    EachFollowed query (entry :: rest) ↔
      (Ready query entry = true → ∃ next rest', rest = next :: rest' ∧ Ready query next = false)
        ∧ EachFollowed query rest := by
  constructor
  · intro h
    refine ⟨h [] entry rest rfl, ?_⟩
    rintro before other after rfl
    exact h (entry :: before) other after rfl
  · rintro ⟨hhead, hrest⟩ before other after hsplit
    cases before with
    | nil =>
        obtain ⟨rfl, rfl⟩ := List.cons.inj hsplit
        exact hhead
    | cons first before =>
        obtain ⟨-, hsplit⟩ := List.cons.inj hsplit
        exact hrest before other after hsplit

/-- With such neighbours the entries that are not visited are not ready. -/
theorem pollCudaOnceLoop_followed (visited rest called : List PendingCudaEvent) (any : Bool)
    (h : EachFollowed query rest) :
    pollCudaOnceLoop query visited rest called any = some
      { pendingCudaEvents := visited ++ rest.filter (fun entry => !Ready query entry)
        called := called ++ rest.filter (Ready query)
        any := any || rest.any (Ready query) } := by
  fun_induction pollCudaOnceLoop query visited rest called any with
  | case1 visited called any => simp
  | case2 visited entry called any hready =>
      obtain ⟨next, rest', hnil, -⟩ := (eachFollowed_cons.mp h).1 hready
      exact nomatch hnil
  | case3 visited entry called any hready next rest ih =>
      obtain ⟨hhead, htail⟩ := eachFollowed_cons.mp h
      obtain ⟨next', rest', hcons, hnext⟩ := hhead hready
      obtain ⟨rfl, rfl⟩ := List.cons.inj hcons
      have hentry : Ready query entry = true := hready
      rw [ih (eachFollowed_cons.mp htail).2]
      simp [hentry, hnext]
  | case4 visited entry rest called any hready ih =>
      have hentry : Ready query entry = false := Bool.eq_false_iff.mpr hready
      rw [ih (eachFollowed_cons.mp h).2]
      simp [hentry]

/-- A pass calls back ready entries only, each at most once. -/
theorem pollCudaOnceLoop_called (visited rest called : List PendingCudaEvent) (any : Bool)
    {poll : CudaPoll} (h : pollCudaOnceLoop query visited rest called any = some poll) :
    poll.called.length ≤ called.length + rest.countP (Ready query) := by
  fun_induction pollCudaOnceLoop query visited rest called any with
  | case1 visited called any =>
      obtain rfl := Option.some.inj h
      exact Nat.le_refl _
  | case2 visited entry called any hready => exact nomatch h
  | case3 visited entry called any hready next rest ih =>
      have hle := ih h
      have hentry : Ready query entry = true := hready
      rw [List.length_append] at hle
      rw [List.countP_cons_of_pos hentry, List.countP_cons]
      simp only [List.length_singleton] at hle
      omega
  | case4 visited entry rest called any hready ih =>
      have hle := ih h
      rw [List.countP_cons]
      omega

/-- Without such neighbours the iterator leaves the list, or a ready entry is passed over. -/
theorem pollCudaOnceLoop_missed (visited rest called : List PendingCudaEvent) (any : Bool)
    {poll : CudaPoll} (h : pollCudaOnceLoop query visited rest called any = some poll)
    (hmissed : ¬ EachFollowed query rest) :
    poll.called.length < called.length + rest.countP (Ready query) := by
  fun_induction pollCudaOnceLoop query visited rest called any with
  | case1 visited called any => exact absurd eachFollowed_nil hmissed
  | case2 visited entry called any hready => exact nomatch h
  | case3 visited entry called any hready next rest ih =>
      have hentry : Ready query entry = true := hready
      rw [List.countP_cons_of_pos hentry, List.countP_cons]
      cases hnext : Ready query next with
      | true =>
          -- the entry behind it is ready and is not visited
          have hle := pollCudaOnceLoop_called _ _ _ _ h
          rw [List.length_append, List.length_singleton] at hle
          rw [if_pos rfl]
          omega
      | false =>
          have hrest : ¬ EachFollowed query rest := by
            intro hrest
            refine hmissed (eachFollowed_cons.mpr ⟨fun _ => ⟨next, rest, rfl, hnext⟩, ?_⟩)
            refine eachFollowed_cons.mpr ⟨fun hyes => ?_, hrest⟩
            exact absurd (hnext.symm.trans hyes) Bool.false_ne_true
          have hlt := ih h hrest
          rw [List.length_append, List.length_singleton] at hlt
          rw [if_neg Bool.false_ne_true]
          omega
  | case4 visited entry rest called any hready ih =>
      have hentry : Ready query entry = false := Bool.eq_false_iff.mpr hready
      have hlt := ih h (fun hrest => hmissed (eachFollowed_cons.mpr
        ⟨fun hyes => absurd (hentry.symm.trans hyes) Bool.false_ne_true, hrest⟩))
      rw [List.countP_cons, if_neg (by rw [hentry]; exact Bool.false_ne_true)]
      omega

end Pass

-- ── What a pass is for ───────────────────────────────────────────────────────

/-- The pass stays within the list, calls back each ready entry exactly once and no other, leaves
    the others as they were, and tells whether there was one. -/
def ServesReady (query : Nat → Bool) (events : List PendingCudaEvent) : Prop :=
  ∃ poll, pollCudaOnce query events = some poll
    ∧ poll.called.Perm (events.filter (Ready query))
    ∧ poll.pendingCudaEvents = events.filter (fun entry => !Ready query entry)
    ∧ (poll.any = true ↔ ∃ entry ∈ events, Ready query entry = true)

/-- Every ready event is served if and only if an entry that is not ready follows each one that
    is. -/
theorem serves_ready_iff (query : Nat → Bool) (events : List PendingCudaEvent) :
    ServesReady query events ↔ EachFollowed query events := by
  constructor
  · rintro ⟨poll, hpoll, hcalled, -, -⟩
    by_contra hmissed
    have hlt := pollCudaOnceLoop_missed _ _ _ _ hpoll hmissed
    rw [hcalled.length_eq, List.countP_eq_length_filter, List.length_nil, Nat.zero_add] at hlt
    exact Nat.lt_irrefl _ hlt
  · intro h
    refine ⟨_, pollCudaOnceLoop_followed [] events [] false h, ?_, rfl, ?_⟩
    · exact List.Perm.refl _
    · rw [Bool.false_or, List.any_eq_true]

/-- Of two neighbours that are both ready, the second one is left. -/
theorem ready_neighbour_missed :
    ¬ ∀ (query : Nat → Bool) (events : List PendingCudaEvent), ServesReady query events := by
  intro h
  obtain ⟨poll, hpoll, -, hleft, -⟩ := h (fun event => event < 2) [⟨0, 0⟩, ⟨1, 1⟩, ⟨2, 2⟩]
  obtain rfl : _ = poll := Option.some.inj hpoll
  exact absurd (congrArg List.length hleft) (by decide)

end TpCudaGdr
