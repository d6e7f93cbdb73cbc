import Mathlib.Data.List.Basic
import Mathlib.Tactic.Common

/-! # Requests against credits

    A request takes a credit and is handed on, or waits in a queue if there is none.  Credits
    come back in batches, and each batch lets as many of the waiting requests through as it
    pays for.

    Between these operations nothing waits while there is a credit (`Orderly.waits`), and that is
    what keeps the requests in order: one that finds a credit finds no other before it.

    Nothing here knows what the requests are. -/

namespace TpCreditQueue

variable {α : Type}

/-- The requests handed over and those that wait for a credit. -/
structure CreditQueue (α : Type) where
  available : Nat
  pending : List α := []
  handed : List α := []

namespace CreditQueue

/-- Hands a request over, or keeps it until there is a credit. -/
def request (q : CreditQueue α) (x : α) : CreditQueue α :=
  if 0 < q.available then
    { q with available := q.available - 1, handed := q.handed ++ [x] }
  else { q with pending := q.pending ++ [x] }

/-- Requests, one after the other. -/
def requests (q : CreditQueue α) (xs : List α) : CreditQueue α := xs.foldl request q

theorem requests_append (q : CreditQueue α) (xs ys : List α) :
    q.requests (xs ++ ys) = (q.requests xs).requests ys :=
  List.foldl_append

/-- Hand on what waits, for at most this many rounds, each by a new request that is then taken
    off the queue. -/
def drain : Nat → CreditQueue α → CreditQueue α
  | 0, q => q
  | fuel + 1, q =>
      match q.pending with
      | [] => q
      | x :: _ =>
          if 0 < q.available then
            let q := q.request x
            drain fuel { q with pending := q.pending.tail }
          else q

theorem drain_done {q : CreditQueue α} (fuel : Nat) (h : q.pending = [] ∨ ¬ 0 < q.available) :
    q.drain fuel = q := by
  cases fuel with
  | zero => rfl
  | succ fuel =>
      rw [drain]
      cases hpending : q.pending with
      | nil => rfl
      | cons x rest =>
          have hnone : ¬ 0 < q.available := h.resolve_left (by simp [hpending])
          simp only [if_neg hnone]

theorem drain_round {q : CreditQueue α} {x : α} {rest : List α} (fuel : Nat)
    (hpending : q.pending = x :: rest) (havail : 0 < q.available) :
    q.drain (fuel + 1)
      = drain fuel { q.request x with pending := (q.request x).pending.tail } := by
  rw [drain, hpending]
  simp only [if_pos havail]

/-- Credits come back. -/
def refund (q : CreditQueue α) (credits : Nat) : CreditQueue α :=
  drain q.pending.length { q with available := q.available + credits }

end CreditQueue

-- ── Order ────────────────────────────────────────────────────────────────────

/-- All requests so far are handed on or wait, in this order, and the credits are those of
    `supply` that were not handed on with a request. -/
structure Sorted (q : CreditQueue α) (requested : List α) (supply : Nat) : Prop where
  order : q.handed ++ q.pending = requested
  credits : q.available + q.handed.length = supply

/-- And nothing waits for a credit that is there. -/
structure Orderly (q : CreditQueue α) (requested : List α) (supply : Nat) : Prop
    extends Sorted q requested supply where
  waits : q.pending ≠ [] → q.available = 0

section Order

variable {q : CreditQueue α} {requested : List α} {supply : Nat}

theorem orderly_init (credits : Nat) :
    Orderly ({ available := credits } : CreditQueue α) [] credits :=
  { order := rfl, credits := rfl, waits := fun h => absurd rfl h }

theorem Orderly.request (h : Orderly q requested supply) (x : α) :
    Orderly (q.request x) (requested ++ [x]) supply := by
  rw [CreditQueue.request]
  by_cases havail : 0 < q.available
  · -- who finds a credit finds nobody waiting
    have hnone : q.pending = [] := by
      by_contra hpending
      exact absurd (h.waits hpending) (Nat.ne_of_gt havail)
    have horder := h.order
    have hcredits := h.credits
    rw [hnone, List.append_nil] at horder
    rw [if_pos havail]
    refine { order := ?_, credits := ?_, waits := fun hpending => absurd hnone hpending }
    · show (q.handed ++ [x]) ++ q.pending = _
      rw [hnone, List.append_nil, horder]
    · show q.available - 1 + (q.handed ++ [x]).length = supply
      rw [List.length_append, List.length_singleton]
      omega
  · rw [if_neg havail]
    refine { order := ?_, credits := h.credits, waits := fun _ => Nat.eq_zero_of_not_pos havail }
    show q.handed ++ (q.pending ++ [x]) = _
    rw [← List.append_assoc, h.order]

theorem Orderly.requests (xs : List α) (h : Orderly q requested supply) :
    Orderly (q.requests xs) (requested ++ xs) supply := by
  induction xs generalizing q requested with
  | nil =>
      rw [List.append_nil]
      exact h
  | cons x xs ih =>
      have hrest := ih (h.request x)
      rw [List.append_assoc, List.singleton_append] at hrest
      exact hrest

/-- By induction on the rounds: each one hands on the request that waits longest. -/
theorem Sorted.drain (fuel : Nat) (h : Sorted q requested supply)
    (hfuel : q.pending.length ≤ fuel) : Orderly (q.drain fuel) requested supply := by
  induction fuel generalizing q with
  | zero =>
      have hnone := List.length_eq_zero_iff.mp (Nat.le_zero.mp hfuel)
      exact { h with waits := fun hpending => absurd hnone hpending }
  | succ fuel ih =>
      cases hpending : q.pending with
      | nil =>
          rw [CreditQueue.drain_done _ (Or.inl hpending)]
          exact { h with waits := fun hne => absurd hpending hne }
      | cons x rest =>
          by_cases havail : 0 < q.available
          · have horder := h.order
            have hcredits := h.credits
            rw [hpending] at horder hfuel
            rw [CreditQueue.drain_round fuel hpending havail]
            simp only [CreditQueue.request, if_pos havail]
            refine ih ⟨?_, ?_⟩ ?_
            · show (q.handed ++ [x]) ++ q.pending.tail = requested
              rw [hpending, List.append_assoc]
              exact horder
            · show q.available - 1 + (q.handed ++ [x]).length = supply
              rw [List.length_append, List.length_singleton]
              omega
            · show q.pending.tail.length ≤ fuel
              rw [hpending]
              exact Nat.le_of_succ_le_succ hfuel
          · rw [CreditQueue.drain_done _ (Or.inr havail)]
            exact { h with waits := fun _ => Nat.eq_zero_of_not_pos havail }

theorem Orderly.refund (h : Orderly q requested supply) (credits : Nat) :
    Orderly (q.refund credits) requested (supply + credits) := by
  refine Sorted.drain _ ⟨h.order, ?_⟩ (Nat.le_refl _)
  rw [Nat.add_right_comm, h.credits]

end Order

end TpCreditQueue
