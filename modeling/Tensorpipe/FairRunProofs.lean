import Mathlib.Tactic.Common

/-! # Fair runs

    A machine takes one labelled step at a time, or none.  A run is fair to a set of steps if,
    whenever one of them is possible from some point on, one of them is taken after that point.

    What is reached along a fair run follows from a measure (`WeakFair.leadsTo`): no step makes
    it larger, and the steps that the run is fair to make it smaller. -/

namespace TpFair

variable {State Label : Type}

/-- An infinite run from a state, of one step or none at a time. -/
structure Run (step : State → Label → Option State) (init : State) where
  state : Nat → State
  label : Nat → Option Label
  start : state 0 = init
  next : ∀ n, (label n = none ∧ state (n + 1) = state n) ∨
    ∃ l, label n = some l ∧ step (state n) l = some (state (n + 1))

section Runs

variable {step : State → Label → Option State} {init : State}

/-- What every step keeps stays. -/
theorem Run.stays (r : Run step init) {p : State → Prop}
    (hstep : ∀ s l s', p s → step s l = some s' → p s') {n : Nat} (h : p (r.state n)) {m : Nat}
    (hm : n ≤ m) : p (r.state m) := by
  induction hm with
  | refl => exact h
  | @step m _ ih =>
      rcases r.next m with ⟨-, hsame⟩ | ⟨l, -, hs⟩
      · exact hsame ▸ ih
      · exact hstep _ _ _ ih hs

/-- What the first state has and every step keeps, every state has. -/
theorem Run.invariant (r : Run step init) {p : State → Prop} (hinit : p init)
    (hstep : ∀ s l s', p s → step s l = some s' → p s') (n : Nat) : p (r.state n) := by
  have hstart : p (r.state 0) := r.start.symm ▸ hinit
  exact r.stays hstep hstart (Nat.zero_le n)

/-- **Weak fairness** to a set of steps. -/
def Run.WeakFair (r : Run step init) (taken : Label → Prop) : Prop :=
  ∀ n, (∀ m, n ≤ m → ∃ l, taken l ∧ step (r.state m) l ≠ none) →
    ∃ m, n ≤ m ∧ ∃ l, taken l ∧ r.label m = some l

variable {r : Run step init} {p q : State → Prop} {measure : State → Nat}

/-- Until the goal is reached the premise stays, and the measure does not grow. -/
theorem Run.reached_or_stays
    (hstep : ∀ s l s', p s → step s l = some s' → q s' ∨ (p s' ∧ measure s' ≤ measure s))
    {n : Nat} (h : p (r.state n)) {m : Nat} (hm : n ≤ m) :
    (∃ k, n ≤ k ∧ q (r.state k)) ∨
      (p (r.state m) ∧ measure (r.state m) ≤ measure (r.state n)) := by
  induction hm with
  | refl => exact Or.inr ⟨h, Nat.le_refl _⟩
  | @step m hm ih =>
      rcases ih with hreached | ⟨hp, hle⟩
      · exact Or.inl hreached
      · rcases r.next m with ⟨-, hsame⟩ | ⟨l, -, hs⟩
        · exact Or.inr (hsame.symm ▸ ⟨hp, hle⟩)
        · rcases hstep _ _ _ hp hs with hq | ⟨hp', hle'⟩
          · exact Or.inl ⟨m + 1, Nat.le_succ_of_le hm, hq⟩
          · exact Or.inr ⟨hp', Nat.le_trans hle' hle⟩

/-- **Progress by a measure.**  While the premise holds a fair step is possible; a step reaches
    the goal or keeps the premise without making the measure larger, and a fair one makes it
    smaller. -/
theorem Run.WeakFair.leadsTo {taken : Label → Prop} (hfair : r.WeakFair taken)
    (measure : State → Nat) (henabled : ∀ s, p s → ∃ l, taken l ∧ step s l ≠ none)
    (hstep : ∀ s l s', p s → step s l = some s' →
      q s' ∨ (p s' ∧ measure s' ≤ measure s ∧ (taken l → measure s' < measure s)))
    {n : Nat} (h : p (r.state n)) : ∃ m, n ≤ m ∧ q (r.state m) := by
  have hkeeps : ∀ s l s', p s → step s l = some s' →
      q s' ∨ (p s' ∧ measure s' ≤ measure s) := by
    intro s l s' hp hs
    exact (hstep s l s' hp hs).imp_right (fun hboth => ⟨hboth.1, hboth.2.1⟩)
  -- the measure of the state bounds the number of fair steps that are left
  generalize hk : measure (r.state n) = k
  induction k using Nat.strongRecOn generalizing n with
  | ind k ih =>
    by_contra hnever
    have hstays : ∀ m, n ≤ m →
        p (r.state m) ∧ measure (r.state m) ≤ measure (r.state n) :=
      fun m hm => (Run.reached_or_stays hkeeps h hm).resolve_left hnever
    obtain ⟨m, hm, l, htaken, hlabel⟩ := hfair n (fun m hm => henabled _ (hstays m hm).1)
    rcases r.next m with ⟨hnone, -⟩ | ⟨l', hlabel', hs⟩
    · exact nomatch hnone.symm.trans hlabel
    · obtain rfl := Option.some.inj (hlabel.symm.trans hlabel')
      rcases hstep _ _ _ (hstays m hm).1 hs with hq | ⟨hp', -, hless⟩
      · exact hnever ⟨m + 1, Nat.le_succ_of_le hm, hq⟩
      · have hlt : measure (r.state (m + 1)) < k :=
          hk ▸ Nat.lt_of_lt_of_le (hless htaken) (hstays m hm).2
        obtain ⟨k', hmk, hq⟩ := ih _ hlt hp' rfl
        exact hnever ⟨k', Nat.le_trans (Nat.le_succ_of_le hm) hmk, hq⟩

/-- Finitely many things that are each reached for good are reached together. -/
theorem Run.all_reached {p : Nat → State → Prop}
    (hstep : ∀ c s l s', p c s → step s l = some s' → p c s') {n : Nat} (bound : Nat)
    (h : ∀ c, c < bound → ∃ m, n ≤ m ∧ p c (r.state m)) :
    ∃ m, n ≤ m ∧ ∀ c, c < bound → p c (r.state m) := by
  induction bound with
  | zero => exact ⟨n, Nat.le_refl n, fun c hc => absurd hc (Nat.not_lt_zero c)⟩
  | succ bound ih =>
      obtain ⟨m, hm, hall⟩ := ih (fun c hc => h c (Nat.lt_succ_of_lt hc))
      obtain ⟨m', hm', hlast⟩ := h bound (Nat.lt_succ_self bound)
      refine ⟨max m m', Nat.le_trans hm (Nat.le_max_left m m'), ?_⟩
      intro c hc
      rcases Nat.lt_succ_iff_lt_or_eq.mp hc with hlt | rfl
      · exact r.stays (hstep c) (hall c hlt) (Nat.le_max_left m m')
      · exact r.stays (hstep c) hlast (Nat.le_max_right m m')

end Runs

-- ── Runs that come to rest ───────────────────────────────────────────────────

/-- The states along a list of steps, the last of which stays. -/
def trace (step : State → Label → Option State) : State → List Label → Nat → State
  | s, [], _ => s
  | s, _ :: _, 0 => s
  | s, l :: ls, n + 1 => trace step ((step s l).getD s) ls n

/-- All steps of a list can be taken. -/
def possible (step : State → Label → Option State) : State → List Label → Bool
  | _, [] => true
  | s, l :: ls =>
      match step s l with
      | some s' => possible step s' ls
      | none => false

variable {step : State → Label → Option State}

theorem trace_zero (s : State) (ls : List Label) : trace step s ls 0 = s := by
  cases ls <;> rfl

/-- A list of steps, and none after them. -/
theorem trace_next {s : State} {ls : List Label} (h : possible step s ls = true) (n : Nat) :
    (ls[n]? = none ∧ trace step s ls (n + 1) = trace step s ls n) ∨
      ∃ l, ls[n]? = some l ∧ step (trace step s ls n) l = some (trace step s ls (n + 1)) := by
  induction ls generalizing s n with
  | nil => exact Or.inl ⟨rfl, rfl⟩
  | cons l ls ih =>
      rw [possible] at h
      split at h
      · next s' hs =>
        cases n with
        | zero =>
            refine Or.inr ⟨l, rfl, ?_⟩
            rw [trace, trace, trace_zero, hs]
            rfl
        | succ n =>
            rw [trace, trace, hs, List.getElem?_cons_succ]
            exact ih h n
      · exact nomatch h

theorem trace_of_le {s : State} {ls : List Label} {n : Nat} (hn : ls.length ≤ n) :
    trace step s ls n = trace step s ls ls.length := by
  induction ls generalizing s n with
  | nil => cases n <;> rfl
  | cons l ls ih =>
      cases n with
      | zero => exact absurd hn (Nat.not_succ_le_zero _)
      | succ n => exact ih (Nat.le_of_succ_le_succ hn)

/-- The steps of a list, and then nothing. -/
def Run.ofList {init : State} (ls : List Label) (h : possible step init ls = true) :
    Run step init where
  state := trace step init ls
  label := fun n => ls[n]?
  start := trace_zero init ls
  next := trace_next h

/-- A run is fair to the steps that are impossible where it comes to rest. -/
theorem Run.weakFair_ofList {init : State} {ls : List Label} (h : possible step init ls = true)
    {taken : Label → Prop}
    (hrest : ∀ l, taken l → step (trace step init ls ls.length) l = none) :
    (Run.ofList ls h).WeakFair taken := by
  intro n henabled
  obtain ⟨l, htaken, hpossible⟩ := henabled (max n ls.length) (Nat.le_max_left n ls.length)
  have hlast : (Run.ofList ls h).state (max n ls.length) = trace step init ls ls.length :=
    trace_of_le (Nat.le_max_right n ls.length)
  rw [hlast] at hpossible
  exact absurd (hrest l htaken) hpossible

end TpFair
