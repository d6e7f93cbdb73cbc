import Mathlib
import Tensorpipe.ListenerProofs

/-! # Calls from within callbacks

    A `RearmableCallback` invokes a callback from whichever call completes a pair, and the
    callback may itself arm and trigger, and so on.  Here a run is a sequence of calls and
    returns, with a stack of what is running: the calls are made by the topmost callback, or
    from outside if there is none.

    Whatever the nesting, the invocations are the callbacks in the order in which they were
    armed, paired with the arguments in the order in which they were given.  To flush is to
    give generated arguments for as long as there are callbacks; a trigger from within gives
    its own in between. -/

namespace TpListener

-- ── Nested calls ─────────────────────────────────────────────────────────────

/-- What runs: a callback, or the loop of `triggerAll` around the one above it. -/
inductive Frame where
  | callback
  | flush
deriving DecidableEq, Repr

/-- Arguments, and whether a flush generated them. -/
structure Given (A : Type) where
  arguments : A
  generated : Bool
deriving DecidableEq, Repr

/-- A rearmable callback with the stack of what runs, and its history: the callbacks that were
    armed, the arguments that were given, and the invocations. -/
structure Nesting (F A : Type) where
  cb : RearmableCallback F A := {}
  stack : List Frame := []
  armed : List F := []
  given : List (Given A) := []
  invoked : List (F × A) := []
deriving DecidableEq, Repr

/-- A call into the rearmable callback, the next round of a flush or its end, or the return of
    a callback. -/
inductive Move (F A : Type) where
  | arm (fn : F)
  | trigger (a : A)
  | triggerAll
  | generate (a : A)
  | flushed
  | done
deriving DecidableEq, Repr

namespace Nesting

variable {F A : Type}

/-- Notes that a function was armed. -/
def arming (s : Nesting F A) (fn : F) : Nesting F A := { s with armed := s.armed ++ [fn] }

/-- Notes that an argument was given. -/
def giving (s : Nesting F A) (a : A) (generated : Bool) : Nesting F A :=
  { s with given := s.given ++ [⟨a, generated⟩] }

/-- What a call leaves, with the callbacks that it invokes on top of the stack. -/
def invoking (s : Nesting F A) (y : RearmableCallback F A × List (F × A)) : Nesting F A :=
  { s with
    cb := y.1
    stack := y.2.map (fun _ => .callback) ++ s.stack
    invoked := s.invoked ++ y.2 }

/-- Whether code that may call runs: a callback, or whoever calls from outside. -/
def calling (s : Nesting F A) : Bool := decide (s.stack.head? ≠ some .flush)

/-- One call on the callback object, or the return of a function. -/
def step (s : Nesting F A) : Move F A → Option (Nesting F A)
  | .arm fn => if s.calling then some ((s.arming fn).invoking (s.cb.arm fn)) else none
  | .trigger a => if s.calling then some ((s.giving a false).invoking (s.cb.trigger a)) else none
  | .triggerAll => if s.calling then some { s with stack := .flush :: s.stack } else none
  | .generate a =>
      -- the loop of `triggerAll`: with a callback at hand it is the same as to trigger it
      match s.stack, s.cb.callbacks with
      | .flush :: _, _ :: _ =>
          some ((s.giving a true).invoking (s.cb.trigger a))
      | _, _ => none
  | .flushed =>
      match s.stack, s.cb.callbacks with
      | .flush :: below, [] => some { s with stack := below }
      | _, _ => none
  | .done =>
      match s.stack with
      | .callback :: below => some { s with stack := below }
      | _ => none

/-- Calls and returns, one after the other. -/
def run (s : Nesting F A) (moves : List (Move F A)) : Option (Nesting F A) := moves.foldlM step s

/-- What a move can do. -/
theorem step_cases {s s' : Nesting F A} {m : Move F A} (h : s.step m = some s') :
    (∃ fn, m = .arm fn ∧ s' = (s.arming fn).invoking (s.cb.arm fn))
    ∨ (∃ a, m = .trigger a ∧ s' = (s.giving a false).invoking (s.cb.trigger a))
    ∨ (m = .triggerAll ∧ s' = { s with stack := .flush :: s.stack })
    ∨ (∃ a, m = .generate a ∧ s.cb.callbacks ≠ []
        ∧ s' = (s.giving a true).invoking (s.cb.trigger a))
    ∨ (∃ below, m = .flushed ∧ s.stack = .flush :: below ∧ s.cb.callbacks = []
        ∧ s' = { s with stack := below })
    ∨ ∃ below, m = .done ∧ s.stack = .callback :: below ∧ s' = { s with stack := below } := by
  cases m with
  | arm fn =>
      rw [step] at h
      split at h
      · exact Or.inl ⟨fn, rfl, (Option.some.inj h).symm⟩
      · exact nomatch h
  | trigger a =>
      rw [step] at h
      split at h
      · exact Or.inr (Or.inl ⟨a, rfl, (Option.some.inj h).symm⟩)
      · exact nomatch h
  | triggerAll =>
      rw [step] at h
      split at h
      · exact Or.inr (Or.inr (Or.inl ⟨rfl, (Option.some.inj h).symm⟩))
      · exact nomatch h
  | generate a =>
      rw [step] at h
      split at h
      · next hstack hcallbacks =>
          refine Or.inr (Or.inr (Or.inr (Or.inl ⟨a, rfl, ?_, (Option.some.inj h).symm⟩)))
          rw [hcallbacks]
          exact List.cons_ne_nil _ _
      · exact nomatch h
  | flushed =>
      rw [step] at h
      split at h
      · next below hstack hcallbacks =>
          exact Or.inr (Or.inr (Or.inr (Or.inr (Or.inl
            ⟨below, rfl, hstack, hcallbacks, (Option.some.inj h).symm⟩))))
      · exact nomatch h
  | done =>
      rw [step] at h
      split at h
      · next below hstack =>
          exact Or.inr (Or.inr (Or.inr (Or.inr (Or.inr
            ⟨below, rfl, hstack, (Option.some.inj h).symm⟩))))
      · exact nomatch h

-- ── The pairs ────────────────────────────────────────────────────────────────

/-- The invocations pair the callbacks with the arguments, and what is left over is of one
    kind. -/
structure Paired (s : Nesting F A) : Prop where
  armed : s.armed = s.invoked.map Prod.fst ++ s.cb.callbacks
  given : s.given.map Given.arguments = s.invoked.map Prod.snd ++ s.cb.args
  oneKind : s.cb.callbacks = [] ∨ s.cb.args = []

theorem paired_start : Paired ({} : Nesting F A) := ⟨rfl, rfl, Or.inl rfl⟩

theorem Paired.arm {s : Nesting F A} (h : Paired s) (fn : F) :
    Paired ((s.arming fn).invoking (s.cb.arm fn)) := by
  obtain ⟨⟨callbacks, args⟩, stack, armed, given, invoked⟩ := s
  obtain ⟨harmed, hgiven, hkind⟩ := h
  dsimp only at harmed hgiven hkind
  cases args with
  | nil =>
      refine ⟨?_, ?_, Or.inr rfl⟩
      · show armed ++ [fn] = (invoked ++ []).map Prod.fst ++ (callbacks ++ [fn])
        rw [harmed, List.append_nil, List.append_assoc]
      · show given.map Given.arguments = (invoked ++ []).map Prod.snd ++ []
        rw [hgiven, List.append_nil invoked]
  | cons a args =>
      -- with arguments left over no callback is
      obtain rfl : callbacks = [] := hkind.resolve_right (List.cons_ne_nil a args)
      refine ⟨?_, ?_, Or.inl rfl⟩
      · show armed ++ [fn] = (invoked ++ [(fn, a)]).map Prod.fst ++ []
        rw [harmed, List.map_append, List.append_nil, List.append_nil]
        rfl
      · show given.map Given.arguments = (invoked ++ [(fn, a)]).map Prod.snd ++ args
        rw [hgiven, List.map_append, List.append_assoc]
        rfl

theorem Paired.trigger {s : Nesting F A} (h : Paired s) (a : A) (generated : Bool) :
    Paired ((s.giving a generated).invoking (s.cb.trigger a)) := by
  obtain ⟨⟨callbacks, args⟩, stack, armed, given, invoked⟩ := s
  obtain ⟨harmed, hgiven, hkind⟩ := h
  dsimp only at harmed hgiven hkind
  cases callbacks with
  | nil =>
      refine ⟨?_, ?_, Or.inl rfl⟩
      · show armed = (invoked ++ []).map Prod.fst ++ []
        rw [harmed, List.append_nil invoked]
      · show (given ++ [Given.mk a generated]).map Given.arguments
          = (invoked ++ []).map Prod.snd ++ (args ++ [a])
        rw [List.map_append, hgiven, List.append_nil, List.append_assoc]
        rfl
  | cons fn callbacks =>
      obtain rfl : args = [] := hkind.resolve_left (List.cons_ne_nil fn callbacks)
      refine ⟨?_, ?_, Or.inr rfl⟩
      · show armed = (invoked ++ [(fn, a)]).map Prod.fst ++ callbacks
        rw [harmed, List.map_append, List.append_assoc]
        rfl
      · show (given ++ [Given.mk a generated]).map Given.arguments
          = (invoked ++ [(fn, a)]).map Prod.snd ++ []
        rw [List.map_append, hgiven, List.map_append, List.append_nil, List.append_nil]
        rfl

/-- **One move.** -/
theorem Paired.step {s s' : Nesting F A} {m : Move F A} (h : Paired s) (hstep : s.step m = some s') :
    Paired s' := by
  obtain ⟨fn, -, rfl⟩ | ⟨a, -, rfl⟩ | ⟨-, rfl⟩ | ⟨a, -, -, rfl⟩ | ⟨below, -, -, -, rfl⟩ |
    ⟨below, -, -, rfl⟩ := step_cases hstep
  · exact h.arm fn
  · exact h.trigger a false
  · exact ⟨h.armed, h.given, h.oneKind⟩
  · exact h.trigger a true
  · exact ⟨h.armed, h.given, h.oneKind⟩
  · exact ⟨h.armed, h.given, h.oneKind⟩

theorem Paired.run {s s' : Nesting F A} {moves : List (Move F A)} (h : Paired s)
    (hrun : s.run moves = some s') : Paired s' := by
  induction moves generalizing s with
  | nil =>
      obtain rfl := Option.some.inj hrun
      exact h
  | cons m rest ih =>
      rw [Nesting.run, List.foldlM_cons] at hrun
      obtain ⟨s₁, hstep, hrest⟩ := Option.bind_eq_some_iff.mp hrun
      exact ih (h.step hstep) hrest

/-- The invocations are all the pairs there can be. -/
theorem Paired.invoked_eq {s : Nesting F A} (h : Paired s) :
    s.invoked = s.armed.zip (s.given.map Given.arguments) := by
  have hlen : (s.invoked.map Prod.fst).length = (s.invoked.map Prod.snd).length := by
    rw [List.length_map, List.length_map]
  have hleft : s.cb.callbacks.zip s.cb.args = [] := by
    rcases h.oneKind with hnone | hnone
    · rw [hnone, List.zip_nil_left]
    · rw [hnone, List.zip_nil_right]
  rw [h.armed, h.given, List.zip_append hlen, hleft, List.append_nil, List.zip_map', List.map_id']

-- ── The history of a run ─────────────────────────────────────────────────────

/-- The callbacks that some moves arm, and the arguments that they give. -/
def arms (moves : List (Move F A)) : List F :=
  moves.filterMap (fun m => match m with
    | .arm fn => some fn
    | _ => none)

/-- The arguments that the moves give. -/
def gives (moves : List (Move F A)) : List (Given A) :=
  moves.filterMap (fun m => match m with
    | .trigger a => some ⟨a, false⟩
    | .generate a => some ⟨a, true⟩
    | _ => none)

theorem step_history {s s' : Nesting F A} {m : Move F A} (hstep : s.step m = some s') :
    s'.armed = s.armed ++ arms [m] ∧ s'.given = s.given ++ gives [m] := by
  obtain ⟨fn, rfl, rfl⟩ | ⟨a, rfl, rfl⟩ | ⟨rfl, rfl⟩ | ⟨a, rfl, -, rfl⟩ | ⟨below, rfl, -, -, rfl⟩ |
    ⟨below, rfl, -, rfl⟩ := step_cases hstep
  · exact ⟨rfl, (List.append_nil _).symm⟩
  · exact ⟨(List.append_nil _).symm, rfl⟩
  · exact ⟨(List.append_nil _).symm, (List.append_nil _).symm⟩
  · exact ⟨(List.append_nil _).symm, rfl⟩
  · exact ⟨(List.append_nil _).symm, (List.append_nil _).symm⟩
  · exact ⟨(List.append_nil _).symm, (List.append_nil _).symm⟩

theorem run_history {s s' : Nesting F A} {moves : List (Move F A)} (hrun : s.run moves = some s') :
    s'.armed = s.armed ++ arms moves ∧ s'.given = s.given ++ gives moves := by
  induction moves generalizing s with
  | nil =>
      obtain rfl := Option.some.inj hrun
      exact ⟨(List.append_nil _).symm, (List.append_nil _).symm⟩
  | cons m rest ih =>
      rw [run, List.foldlM_cons] at hrun
      obtain ⟨s₁, hstep, hrest⟩ := Option.bind_eq_some_iff.mp hrun
      obtain ⟨harmed, hgiven⟩ := step_history hstep
      obtain ⟨harmed', hgiven'⟩ := ih hrest
      rw [harmed', hgiven', harmed, hgiven, List.append_assoc, List.append_assoc, arms, arms, arms,
        gives, gives, gives, ← List.filterMap_append, ← List.filterMap_append]
      exact ⟨rfl, rfl⟩

-- ── Flushing comes to an end ─────────────────────────────────────────────────

/-- A move that is not a call: a round of a flush, its end, or a return. -/
def inner : Move F A → Bool
  | .generate _ => true
  | .flushed => true
  | .done => true
  | _ => false

/-- How many inner moves are to come, if nothing more is armed or flushed. -/
def potential (s : Nesting F A) : Nat := 2 * s.cb.callbacks.length + s.stack.length

/-- What a call may add to that. -/
def cost : Move F A → Nat
  | .arm _ => 2
  | .triggerAll => 1
  | _ => 0

/-- An invocation takes a callback off the deque, and puts it on the stack. -/
theorem potential_trigger (s : Nesting F A) (a : A) (generated : Bool) :
    ((s.giving a generated).invoking (s.cb.trigger a)).potential ≤ s.potential
      ∧ (s.cb.callbacks ≠ [] →
        ((s.giving a generated).invoking (s.cb.trigger a)).potential + 1 = s.potential) := by
  obtain ⟨⟨callbacks, args⟩, stack, armed, given, invoked⟩ := s
  cases callbacks with
  | nil => exact ⟨Nat.le_refl _, fun hne => absurd rfl hne⟩
  | cons fn callbacks =>
      have hpotential : ((Nesting.mk ⟨fn :: callbacks, args⟩ stack armed given invoked).giving a
          generated |>.invoking (RearmableCallback.trigger a ⟨fn :: callbacks, args⟩)).potential
          = 2 * callbacks.length + (stack.length + 1) := rfl
      have hbefore : (Nesting.mk ⟨fn :: callbacks, args⟩ stack armed given invoked).potential
          = 2 * (callbacks.length + 1) + stack.length := rfl
      rw [hpotential, hbefore]
      exact ⟨by omega, fun _ => by omega⟩

theorem potential_arm (s : Nesting F A) (fn : F) :
    ((s.arming fn).invoking (s.cb.arm fn)).potential ≤ s.potential + 2 := by
  obtain ⟨⟨callbacks, args⟩, stack, armed, given, invoked⟩ := s
  cases args with
  | nil =>
      show 2 * (callbacks ++ [fn]).length + stack.length ≤ 2 * callbacks.length + stack.length + 2
      rw [List.length_append, List.length_singleton]
      omega
  | cons a args =>
      show 2 * callbacks.length + (stack.length + 1) ≤ 2 * callbacks.length + stack.length + 2
      omega

theorem step_potential {s s' : Nesting F A} {m : Move F A} (hstep : s.step m = some s') :
    s'.potential + (if inner m then 1 else 0) ≤ s.potential + cost m := by
  have hpop : ∀ frame below, s.stack = frame :: below →
      { s with stack := below }.potential + 1 = s.potential := by
    intro frame below hstack
    show 2 * s.cb.callbacks.length + below.length + 1 = 2 * s.cb.callbacks.length + s.stack.length
    rw [hstack, List.length_cons, Nat.add_assoc]
  obtain ⟨fn, rfl, rfl⟩ | ⟨a, rfl, rfl⟩ | ⟨rfl, rfl⟩ | ⟨a, rfl, hne, rfl⟩ |
    ⟨below, rfl, hstack, -, rfl⟩ | ⟨below, rfl, hstack, rfl⟩ := step_cases hstep
  · exact potential_arm s fn
  · exact (potential_trigger s a false).1
  · exact Nat.le_refl _
  · exact Nat.le_of_eq ((potential_trigger s a true).2 hne)
  · exact Nat.le_of_eq (hpop .flush below hstack)
  · exact Nat.le_of_eq (hpop .callback below hstack)

/-- **The inner moves are bounded** by what is armed and flushed. -/
theorem run_potential {s s' : Nesting F A} {moves : List (Move F A)}
    (hrun : s.run moves = some s') :
    s'.potential + moves.countP inner ≤ s.potential + (moves.map cost).sum := by
  induction moves generalizing s with
  | nil =>
      obtain rfl := Option.some.inj hrun
      exact Nat.le_refl _
  | cons m rest ih =>
      rw [run, List.foldlM_cons] at hrun
      obtain ⟨s₁, hstep, hrest⟩ := Option.bind_eq_some_iff.mp hrun
      have hone := step_potential hstep
      have hmore := ih hrest
      rw [List.countP_cons, List.map_cons, List.sum_cons]
      omega

/-- As long as something runs, it can go on without a call. -/
theorem inner_possible {s : Nesting F A} (h : s.stack ≠ []) (a : A) :
    ∃ m ∈ [Move.generate a, .flushed, .done], (s.step m).isSome = true := by
  obtain ⟨⟨callbacks, args⟩, stack, armed, given, invoked⟩ := s
  cases stack with
  | nil => exact absurd rfl h
  | cons frame below =>
      cases frame with
      | callback => exact ⟨.done, by simp, rfl⟩
      | flush =>
          cases callbacks with
          | nil => exact ⟨.flushed, by simp, rfl⟩
          | cons fn callbacks => exact ⟨.generate a, by simp, rfl⟩

-- ── What a flush leaves ──────────────────────────────────────────────────────

/-- A flush ends only with no callback left; `during` is what happens within it. -/
theorem flush_spec {s s₁ s₂ : Nesting F A} {during : List (Move F A)} (h : Paired s)
    (hduring : s.run (.triggerAll :: during) = some s₁) (hend : s₁.step .flushed = some s₂) :
    s₂.cb.callbacks = [] ∧ s₂.invoked.map Prod.fst = s.armed ++ arms during
      ∧ s₂.invoked = s.invoked ++ (s.cb.callbacks ++ arms during).zip
          (s.cb.args ++ (gives during).map Given.arguments) := by
  have hpaired₁ := h.run hduring
  have hpaired := hpaired₁.step hend
  obtain ⟨harmed₁, hgiven₁⟩ := run_history hduring
  obtain ⟨harmed₂, hgiven₂⟩ := step_history hend
  have harmed : s₂.armed = s.armed ++ arms during := by
    rw [harmed₂, harmed₁]
    exact List.append_nil _
  have hgiven : s₂.given = s.given ++ gives during := by
    rw [hgiven₂, hgiven₁]
    exact List.append_nil _
  have hnone : s₂.cb.callbacks = [] := by
    rw [step] at hend
    split at hend
    · next hstack hcallbacks =>
        obtain rfl := Option.some.inj hend
        exact hcallbacks
    · exact nomatch hend
  have hall := hpaired.armed
  rw [hnone, List.append_nil] at hall
  have hlen : (s.invoked.map Prod.fst).length = (s.invoked.map Prod.snd).length := by
    rw [List.length_map, List.length_map]
  refine ⟨hnone, hall.symm.trans harmed, ?_⟩
  rw [hpaired.invoked_eq, harmed, hgiven, List.map_append, h.armed, h.given, List.append_assoc,
    List.append_assoc, List.zip_append hlen, List.zip_map', List.map_id']

/-- A trigger from within a flush takes the place of generated arguments. -/
theorem trigger_within_flush :
    ¬ ∀ (before during : List (Move Nat Nat)) (s s₁ s₂ : Nesting Nat Nat),
      ({} : Nesting Nat Nat).run before = some s → s.run (.triggerAll :: during) = some s₁ →
      s₁.step .flushed = some s₂ →
      s₂.invoked = s.invoked ++ (s.cb.callbacks ++ arms during).zip
        (((gives during).filter Given.generated).map Given.arguments) := by
  intro h
  let before : List (Move Nat Nat) := [.arm 0, .arm 1]
  let during : List (Move Nat Nat) := [.generate 10, .trigger 20, .done, .done]
  have hall : ((({} : Nesting Nat Nat).run before).bind (fun s =>
      (s.run (.triggerAll :: during)).bind (fun s₁ => (s₁.step .flushed).map (fun s₂ =>
        (s.invoked, s.cb.callbacks, s₂.invoked))))) = some ([], [0, 1], [(0, 10), (1, 20)]) := by
    decide
  obtain ⟨s, hbefore, hrest⟩ := Option.bind_eq_some_iff.mp hall
  obtain ⟨s₁, hduring, hlast⟩ := Option.bind_eq_some_iff.mp hrest
  obtain ⟨s₂, hend, hshows⟩ := Option.map_eq_some_iff.mp hlast
  have hwrong := h before during s s₁ s₂ hbefore hduring hend
  simp only [Prod.mk.injEq] at hshows
  rw [hshows.1, hshows.2.1, hshows.2.2] at hwrong
  exact absurd hwrong (by decide)

/-- **Pairs in order, however nested.**  In any run the invocations are the callbacks that were
    armed, in order, each with the arguments that were given in its place, and never is there a
    callback and arguments that wait.  A flush leaves no callback: it has invoked those armed
    before or during it, with the arguments that were generated, or triggered, during it.  And
    it comes to an end unless arming or flushing goes on. -/
theorem paired_in_order {moves : List (Move F A)} {s : Nesting F A}
    (hrun : ({} : Nesting F A).run moves = some s) :
    (s.cb.callbacks = [] ∨ s.cb.args = [])
      ∧ s.invoked = (arms moves).zip ((gives moves).map Given.arguments)
      ∧ (∀ (during : List (Move F A)) (s₁ s₂ : Nesting F A),
          s.run (.triggerAll :: during) = some s₁ → s₁.step .flushed = some s₂ →
          s₂.cb.callbacks = [] ∧ s₂.invoked.map Prod.fst = arms moves ++ arms during
            ∧ s₂.invoked = s.invoked ++ (s.cb.callbacks ++ arms during).zip
                (s.cb.args ++ (gives during).map Given.arguments))
      ∧ moves.countP inner ≤ (moves.map cost).sum
      ∧ (s.stack ≠ [] → ∀ a : A,
          ∃ m ∈ [Move.generate a, .flushed, .done], (s.step m).isSome = true) := by
  have hpaired := paired_start.run hrun
  obtain ⟨harmed, hgiven⟩ := run_history hrun
  have hempty : ({} : Nesting F A).potential = 0 := rfl
  have hbound := run_potential hrun
  rw [List.nil_append] at harmed hgiven
  refine ⟨hpaired.oneKind, ?_, fun during s₁ s₂ hduring hend => ?_, by omega,
    fun hne a => inner_possible hne a⟩
  · rw [hpaired.invoked_eq, harmed, hgiven]
  · obtain ⟨hnone, horder, hpairs⟩ := flush_spec hpaired hduring hend
    exact ⟨hnone, harmed ▸ horder, hpairs⟩

/-- Two callbacks that are invoked within each other, by arguments that already wait. -/
def sampleMoves : List (Move Nat Nat) :=
  [.trigger 10, .trigger 20, .arm 0, .arm 1, .done, .done, .arm 2, .arm 3]

/-- A flush of two more: the first arms a third and triggers the second. -/
def sampleDuring : List (Move Nat Nat) :=
  [.generate 30, .arm 4, .trigger 40, .done, .done, .generate 50, .done]

theorem paired_in_order_nested :
    ∃ s s₁ s₂ : Nesting Nat Nat, ({} : Nesting Nat Nat).run sampleMoves = some s
      ∧ s.run (.triggerAll :: sampleDuring) = some s₁ ∧ s₁.step .flushed = some s₂
      ∧ s.invoked = [(0, 10), (1, 20)] ∧ s₂.cb.callbacks = []
      ∧ s₂.invoked = [(0, 10), (1, 20), (2, 30), (3, 40), (4, 50)] := by
  have hall : ((({} : Nesting Nat Nat).run sampleMoves).bind (fun s =>
      (s.run (.triggerAll :: sampleDuring)).bind (fun s₁ => (s₁.step .flushed).map (fun _ =>
        (s.cb.callbacks, s.cb.args))))) = some ([2, 3], []) := by
    decide
  obtain ⟨s, hbefore, hrest⟩ := Option.bind_eq_some_iff.mp hall
  obtain ⟨s₁, hduring, hlast⟩ := Option.bind_eq_some_iff.mp hrest
  obtain ⟨s₂, hend, hwaiting⟩ := Option.map_eq_some_iff.mp hlast
  obtain ⟨hcallbacks, hargs⟩ := Prod.mk.inj hwaiting
  obtain ⟨-, hinvoked, hflush, -, -⟩ := paired_in_order hbefore
  obtain ⟨hnone, -, hpairs⟩ := hflush sampleDuring s₁ s₂ hduring hend
  rw [hinvoked, hcallbacks, hargs] at hpairs
  exact ⟨s, s₁, s₂, hbefore, hduring, hend, hinvoked, hnone, hpairs⟩

end Nesting

end TpListener
