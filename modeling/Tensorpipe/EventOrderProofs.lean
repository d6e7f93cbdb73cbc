import Mathlib.Data.List.Basic
import Mathlib.Data.List.Induction
import Mathlib.Logic.Relation
import Mathlib.Tactic.Common

/-! # Streams and events — the order of work that is only issued

    Commands are issued to STREAMS and done later.  A stream does its commands in the order of
    issue; different streams know nothing of each other.  An EVENT connects them: one stream
    records it, another one waits for it, and then does nothing before the latest recording that
    was issued before the wait.

    This file names no device.  The idea: when each resource has an event, and every action on
    the resource stands between a wait for the event and a recording of it, then the actions on a
    resource are done in the order of issue, on whatever streams they are (`Guarded.before`).  So
    who looks at a resource finds what the latest action issued before him wrote there
    (`Guarded.found`), and what the latest of all wrote stays (`Guarded.kept`). -/

namespace TpEventOrder

-- ── Commands ─────────────────────────────────────────────────────────────────

/-- Streams, events and actions are any types; an action is what the commands are there for. -/
inductive Command (Stream Mark Action : Type) where
  | wait (stream : Stream) (event : Mark)
  | act (stream : Stream) (action : Action)
  | record (stream : Stream) (event : Mark)
deriving DecidableEq, Repr

variable {Stream Mark Action : Type}

namespace Command

/-- The stream of a command. -/
def stream : Command Stream Mark Action → Stream
  | .wait s _ | .act s _ | .record s _ => s

/-- The event that a command waits for. -/
def awaited : Command Stream Mark Action → Option Mark
  | .wait _ event => some event
  | _ => none

/-- The event that a command records. -/
def recorded : Command Stream Mark Action → Option Mark
  | .record _ event => some event
  | _ => none

/-- The action of a command. -/
def action : Command Stream Mark Action → Option Action
  | .act _ a => some a
  | _ => none

theorem action_eq_some {c : Command Stream Mark Action} {a : Action} :
    c.action = some a ↔ ∃ s, c = .act s a := by
  cases c <;> simp [action]

end Command

-- ── What has to be done first ────────────────────────────────────────────────

/-- The command at `i` has to be done before the one at `j`: both are on one stream, or the one at
    `j` waits for an event and the one at `i` is the latest recording of it. -/
def Orders (issued : List (Command Stream Mark Action)) (i j : Nat) : Prop :=
  i < j ∧ j < issued.length ∧
    (issued[i]?.map Command.stream = issued[j]?.map Command.stream
      ∨ (issued[j]?.bind Command.awaited).isSome
        ∧ issued[i]?.bind Command.recorded = issued[j]?.bind Command.awaited
        ∧ ∀ k < j, i < k → issued[k]?.bind Command.recorded ≠ issued[j]?.bind Command.awaited)

instance [DecidableEq Stream] [DecidableEq Mark] (issued : List (Command Stream Mark Action))
    (i j : Nat) : Decidable (Orders issued i j) :=
  inferInstanceAs (Decidable (_ ∧ _ ∧ (_ ∨ _ ∧ _ ∧ _)))

/-- What has been done so far, the latest first.  Whatever is issued may come next as soon as
    everything is done that has to be done before it. -/
def Execution (issued : List (Command Stream Mark Action)) : List Nat → Prop
  | [] => True
  | j :: done => Execution issued done ∧ j < issued.length ∧ j ∉ done
      ∧ ∀ i < j, Orders issued i j → i ∈ done

instance decidableExecution [DecidableEq Stream] [DecidableEq Mark]
    (issued : List (Command Stream Mark Action)) :
    (done : List Nat) → Decidable (Execution issued done)
  | [] => inferInstanceAs (Decidable True)
  | j :: done =>
      have := decidableExecution issued done
      inferInstanceAs (Decidable (_ ∧ _ ∧ _ ∧ ∀ i < j, Orders issued i j → i ∈ done))

/-- The order that the streams and the events enforce. -/
def Before (issued : List (Command Stream Mark Action)) : Nat → Nat → Prop :=
  Relation.TransGen (Orders issued)

section Order

variable {issued more : List (Command Stream Mark Action)} {done : List Nat} {i j : Nat}

/-- What is issued later changes nothing about what has to be done first. -/
theorem Orders.append (h : Orders issued i j) : Orders (issued ++ more) i j := by
  obtain ⟨hij, hj, horders⟩ := h
  have hold : ∀ k, k ≤ j → (issued ++ more)[k]? = issued[k]? := fun k hk =>
    List.getElem?_append_left (Nat.lt_of_le_of_lt hk hj)
  refine ⟨hij, by rw [List.length_append]; omega, ?_⟩
  rw [hold i (Nat.le_of_lt hij), hold j (Nat.le_refl j)]
  rcases horders with hstream | ⟨hwaits, hrecords, hlatest⟩
  · exact Or.inl hstream
  · refine Or.inr ⟨hwaits, hrecords, fun k hk hik => ?_⟩
    rw [hold k (Nat.le_of_lt hk)]
    exact hlatest k hk hik

theorem Before.append (h : Before issued i j) : Before (issued ++ more) i j :=
  Relation.TransGen.mono (fun _ _ horders => horders.append) _ _ h

theorem Orders.mem_done (hexec : Execution issued done) (hj : j ∈ done) (h : Orders issued i j) :
    i ∈ done := by
  induction done with
  | nil => exact absurd hj List.not_mem_nil
  | cons last done ih =>
      obtain ⟨hexec, -, -, hfirst⟩ := hexec
      rcases List.mem_cons.mp hj with rfl | hj
      · exact List.mem_cons_of_mem _ (hfirst i h.1 h)
      · exact List.mem_cons_of_mem _ (ih hexec hj)

/-- Nothing is done before what has to be done first. -/
theorem Before.mem_done (hexec : Execution issued done) (hj : j ∈ done) (h : Before issued i j) :
    i ∈ done := by
  induction h with
  | single h => exact h.mem_done hexec hj
  | tail _ h ih => exact ih (h.mem_done hexec hj)

/-- What is not done yet does not have to be done before anything that is. -/
theorem Execution.not_before (h : Execution issued (i :: done)) (hj : j ∈ done) :
    ¬ Before issued i j := fun hbefore =>
  h.2.2.1 (hbefore.mem_done h.1 hj)

end Order

-- ── Guarded actions ──────────────────────────────────────────────────────────

section Guarded

variable (event : Action → Mark)

/-- An action between a wait for the event of its resource and a recording of it. -/
def guarded (s : Stream) (a : Action) : List (Command Stream Mark Action) :=
  [.wait s (event a), .act s a, .record s (event a)]

/-- Every action waits for its event and records it again. -/
inductive Guarded : List (Command Stream Mark Action) → Prop where
  | nil : Guarded []
  | snoc {issued : List (Command Stream Mark Action)} (h : Guarded issued) (s : Stream)
      (a : Action) : Guarded (issued ++ guarded event s a)

variable {event} {issued more : List (Command Stream Mark Action)}

theorem Guarded.append (h : Guarded event issued) (hmore : Guarded event more) :
    Guarded event (issued ++ more) := by
  induction hmore with
  | nil => rwa [List.append_nil]
  | snoc _ s a ih =>
      rw [← List.append_assoc]
      exact .snoc ih s a

/-- The three places behind a list. -/
theorem getElem?_guarded (s : Stream) (a : Action) (i : Nat) (h : issued.length ≤ i) :
    (issued ++ guarded event s a)[i]? = if i = issued.length then some (.wait s (event a))
      else if i = issued.length + 1 then some (.act s a)
      else if i = issued.length + 2 then some (.record s (event a)) else none := by
  obtain ⟨d, rfl⟩ := Nat.exists_eq_add_of_le h
  rw [List.getElem?_append_right h, Nat.add_sub_cancel_left]
  match d with
  | 0 => simp [guarded]
  | 1 => simp [guarded]
  | 2 => simp [guarded]
  | d + 3 =>
      rw [if_neg (by omega), if_neg (by omega), if_neg (by omega)]
      simp [guarded]

/-- A recording that no other one of the event is behind. -/
def LatestRecord (issued : List (Command Stream Mark Action)) (m : Mark) (r : Nat) : Prop :=
  issued[r]?.bind Command.recorded = some m
    ∧ ∀ k, r < k → issued[k]?.bind Command.recorded ≠ some m

theorem LatestRecord.lt_length {m : Mark} {r : Nat} (h : LatestRecord issued m r) :
    r < issued.length := by
  by_contra hge
  have hrecord := h.1
  rw [List.getElem?_eq_none (Nat.not_lt.mp hge)] at hrecord
  exact absurd hrecord (by simp)

/-- A guarded action is on one stream with its wait and its recording. -/
theorem orders_guarded (s : Stream) (a : Action) {i j : Nat} (hi : issued.length ≤ i)
    (hij : i < j) (hj : j < issued.length + 3) :
    Orders (issued ++ guarded event s a) i j := by
  have hstream : ∀ k, issued.length ≤ k → k < issued.length + 3 →
      (issued ++ guarded event s a)[k]?.map Command.stream = some s := by
    intro k hk hlt
    rw [getElem?_guarded s a k hk]
    split_ifs with h0 h1 h2
    · rfl
    · rfl
    · rfl
    · omega
  refine ⟨hij, ?_, Or.inl ?_⟩
  · rw [List.length_append]
    exact hj
  · rw [hstream i hi (by omega), hstream j (by omega) hj]

/-- The wait of a guarded action comes after the latest recording. -/
theorem LatestRecord.orders {a : Action} {r : Nat} (h : LatestRecord issued (event a) r)
    (s : Stream) : Orders (issued ++ guarded event s a) r issued.length := by
  have hwait : (issued ++ guarded event s a)[issued.length]? = some (.wait s (event a)) := by
    rw [getElem?_guarded s a _ (Nat.le_refl _), if_pos rfl]
  refine ⟨h.lt_length, by simp [guarded], Or.inr ?_⟩
  rw [hwait]
  refine ⟨rfl, ?_, fun k hk hrk => ?_⟩
  · rw [List.getElem?_append_left h.lt_length]
    exact h.1
  · rw [List.getElem?_append_left hk]
    exact h.2 k hrk

/-- Whoever records the event last, every action on the resource is done before. -/
theorem Guarded.recording (h : Guarded event issued) {i : Nat} {s : Stream} {a : Action}
    (hi : issued[i]? = some (.act s a)) :
    ∃ r, LatestRecord issued (event a) r ∧ Before issued i r := by
  induction h with
  | nil => exact absurd hi (by simp)
  | @snoc issued h s' b ih =>
      have hlater : ∀ k, issued.length ≤ k →
          (issued ++ guarded event s' b)[k]?.bind Command.recorded
            = if k = issued.length + 2 then some (event b) else none := by
        intro k hk
        rw [getElem?_guarded s' b k hk]
        split_ifs <;> first | rfl | omega
      have hown : LatestRecord (issued ++ guarded event s' b) (event b) (issued.length + 2) := by
        refine ⟨by rw [hlater _ (by omega), if_pos rfl], fun k hk => ?_⟩
        rw [hlater k (by omega), if_neg (by omega)]
        exact fun hno => absurd hno (by simp)
      rcases Nat.lt_or_ge i issued.length with hlt | hge
      · rw [List.getElem?_append_left hlt] at hi
        obtain ⟨r, hr, hbefore⟩ := ih hi
        by_cases hsame : event a = event b
        · rw [hsame] at hr
          refine ⟨_, hsame ▸ hown, (hbefore.append.tail (hr.orders s')).tail ?_⟩
          exact orders_guarded s' b (Nat.le_refl _) (by omega) (by omega)
        · refine ⟨r, ⟨?_, fun k hk => ?_⟩, hbefore.append⟩
          · rw [List.getElem?_append_left hr.lt_length]
            exact hr.1
          · rcases Nat.lt_or_ge k issued.length with hlt | hge
            · rw [List.getElem?_append_left hlt]
              exact hr.2 k hk
            · rw [hlater k hge]
              split_ifs
              · exact fun heq => hsame (Option.some.inj heq).symm
              · exact fun hno => absurd hno (by simp)
      · rw [getElem?_guarded s' b i hge] at hi
        split_ifs at hi with h0 h1 h2
        · exact absurd hi (by simp)
        · obtain ⟨-, rfl⟩ := Command.act.inj (Option.some.inj hi)
          exact ⟨_, hown, .single (orders_guarded s' b hge (by omega) (by omega))⟩
        · exact absurd hi (by simp)

/-- **Guarded actions on a resource are done in the order of issue.** -/
theorem Guarded.before (h : Guarded event issued) {i j : Nat} {s s' : Stream} {a b : Action}
    (hi : issued[i]? = some (.act s a)) (hj : issued[j]? = some (.act s' b))
    (hsame : event a = event b) (hij : i < j) : Before issued i j := by
  induction h with
  | nil => exact absurd hi (by simp)
  | @snoc issued h s'' c ih =>
      rcases Nat.lt_or_ge j issued.length with hlt | hge
      · rw [List.getElem?_append_left (Nat.lt_trans hij hlt)] at hi
        rw [List.getElem?_append_left hlt] at hj
        exact (ih hi hj).append
      · rw [getElem?_guarded s'' c j hge] at hj
        split_ifs at hj with h0 h1 h2
        · exact absurd hj (by simp)
        · -- the new action waits for the latest recording, which comes after the old one
          obtain ⟨-, rfl⟩ := Command.act.inj (Option.some.inj hj)
          have hold : i < issued.length := by
            by_contra hno
            rw [show i = issued.length by omega, getElem?_guarded s'' c _ (Nat.le_refl _),
              if_pos rfl] at hi
            exact absurd hi (by simp)
          rw [List.getElem?_append_left hold] at hi
          obtain ⟨r, hr, hbefore⟩ := h.recording hi
          rw [hsame] at hr
          refine (hbefore.append.tail (hr.orders s'')).tail ?_
          exact orders_guarded s'' c (Nat.le_refl _) (by omega) (by omega)
        · exact absurd hj (by simp)

end Guarded

-- ── What a resource holds ────────────────────────────────────────────────────

section Holder

variable (writes : Action → Option Mark)

/-- The resource that the command at `k` writes. -/
def written (issued : List (Command Stream Mark Action)) (k : Nat) : Option Mark :=
  (issued[k]?.bind Command.action).bind writes

/-- The latest write that was done on a resource. -/
def holder [DecidableEq Mark] (issued : List (Command Stream Mark Action)) (m : Mark) :
    List Nat → Option Nat
  | [] => none
  | j :: done => if written writes issued j = some m then some j else holder issued m done

/-- The latest write on a resource that was issued. -/
def latest [DecidableEq Mark] (m : Mark) (issued : List (Command Stream Mark Action)) :
    Option Action :=
  ((issued.filterMap Command.action).filter (fun a => writes a = some m)).getLast?

variable {writes} [DecidableEq Mark] {event : Action → Mark}
  {issued more : List (Command Stream Mark Action)} {done : List Nat} {m : Mark}

@[simp] theorem latest_nil : latest writes m ([] : List (Command Stream Mark Action)) = none := rfl

theorem latest_append :
    latest writes m (issued ++ more) = (latest writes m more).or (latest writes m issued) := by
  rw [latest, List.filterMap_append, List.filter_append, List.getLast?_append]
  rfl

/-- Where nothing is written, nothing is written in a beginning. -/
theorem latest_take_eq_none (h : latest writes m issued = none) (n : Nat) :
    latest writes m (issued.take n) = none := by
  rw [latest, List.getLast?_eq_none_iff] at h ⊢
  have hsublist := ((List.take_sublist n issued).filterMap Command.action).filter
    (fun a => decide (writes a = some m))
  rw [h] at hsublist
  exact List.sublist_nil.mp hsublist

theorem latest_guarded (s : Stream) (a : Action) :
    latest writes m (guarded event s a) = if writes a = some m then some a else none := by
  have haction : (guarded event s a).filterMap Command.action = [a] := rfl
  rw [latest, haction]
  by_cases hwrites : writes a = some m
  · simp [hwrites]
  · simp [hwrites]

/-- Where the latest write is. -/
theorem exists_latest {a : Action} (h : latest writes m issued = some a) :
    ∃ k s, issued[k]? = some (.act s a) ∧ writes a = some m
      ∧ ∀ k', k < k' → written writes issued k' ≠ some m := by
  induction issued using List.reverseRecOn with
  | nil => exact absurd h (by simp)
  | append_singleton issued c ih =>
      rw [latest_append] at h
      have hlast : (issued ++ [c])[issued.length]? = some c := by simp
      have hwritten : written writes (issued ++ [c]) issued.length = c.action.bind writes := by
        rw [written, hlast]
        rfl
      cases hc : latest writes m [c] with
      | some b =>
          rw [hc] at h
          obtain rfl : b = a := Option.some.inj h
          have hmem : b ∈ ([c].filterMap Command.action).filter (fun a => writes a = some m) :=
            List.mem_of_getLast? hc
          obtain ⟨hmem, hwrites⟩ := List.mem_filter.mp hmem
          obtain ⟨c', hc', haction⟩ := List.mem_filterMap.mp hmem
          obtain rfl := List.mem_singleton.mp hc'
          obtain ⟨s, rfl⟩ := Command.action_eq_some.mp haction
          refine ⟨issued.length, s, hlast, of_decide_eq_true hwrites, fun k' hk' => ?_⟩
          rw [written, List.getElem?_eq_none (by simp; omega)]
          exact fun hno => absurd hno (by simp)
      | none =>
          rw [hc] at h
          obtain ⟨k, s, hk, hwrites, hlater⟩ := ih h
          have hlt : k < issued.length := (List.getElem?_eq_some_iff.mp hk).1
          refine ⟨k, s, by rw [List.getElem?_append_left hlt, hk], hwrites, fun k' hk' => ?_⟩
          rcases Nat.lt_trichotomy k' issued.length with hold | rfl | hnew
          · rw [written, List.getElem?_append_left hold]
            exact hlater k' hk'
          · rw [hwritten]
            intro heq
            obtain ⟨b, hb, hbw⟩ := Option.bind_eq_some_iff.mp heq
            simp [latest, hb, hbw] at hc
          · rw [written, List.getElem?_eq_none (by simp; omega)]
            exact fun hno => absurd hno (by simp)

/-- Writes are done in the order of issue, so the latest one of those that are done is what the
    resource holds. -/
theorem Guarded.holder_eq (h : Guarded event issued)
    (hevent : ∀ a m, writes a = some m → event a = m) (hexec : Execution issued done) {k : Nat}
    (hk : k ∈ done) (hwritten : written writes issued k = some m)
    (hlast : ∀ k' ∈ done, written writes issued k' = some m → k' ≤ k) :
    holder writes issued m done = some k := by
  have hact : ∀ k, written writes issued k = some m →
      ∃ s a, issued[k]? = some (.act s a) ∧ event a = m := by
    intro k hk
    obtain ⟨a, ha, hwrites⟩ := Option.bind_eq_some_iff.mp hk
    obtain ⟨c, hc, haction⟩ := Option.bind_eq_some_iff.mp ha
    obtain ⟨s, rfl⟩ := Command.action_eq_some.mp haction
    exact ⟨s, a, hc, hevent a m hwrites⟩
  induction done with
  | nil => exact absurd hk List.not_mem_nil
  | cons j done ih =>
      rw [holder]
      by_cases hj : written writes issued j = some m
      · rw [if_pos hj]
        rcases List.mem_cons.mp hk with rfl | hmem
        · rfl
        · -- what is done later was issued later
          have hne : j ≠ k := fun heq => hexec.2.2.1 (heq ▸ hmem)
          have hle := hlast j (List.mem_cons_self ..) hj
          obtain ⟨s, a, ha, hea⟩ := hact j hj
          obtain ⟨s', b, hb, heb⟩ := hact k hwritten
          exact absurd (h.before ha hb (hea.trans heb.symm) (by omega)) (hexec.not_before hmem)
      · rw [if_neg hj]
        rcases List.mem_cons.mp hk with rfl | hmem
        · exact absurd hwritten hj
        · exact ih hexec.1 hmem (fun k' hk' => hlast k' (List.mem_cons_of_mem _ hk'))

/-- **The latest write stays**, once it is done. -/
theorem Guarded.kept (h : Guarded event issued) (hevent : ∀ a m, writes a = some m → event a = m)
    {a : Action} (hlatest : latest writes m issued = some a) :
    ∃ k s, issued[k]? = some (.act s a)
      ∧ ∀ done, Execution issued done → k ∈ done → holder writes issued m done = some k := by
  obtain ⟨k, s, hk, hwrites, hlater⟩ := exists_latest hlatest
  refine ⟨k, s, hk, fun done hexec hdone => h.holder_eq hevent hexec hdone ?_ (fun k' _ hk' => ?_)⟩
  · rw [written, hk]
    exact hwrites
  · by_contra hlt
    exact hlater k' (Nat.not_le.mp hlt) hk'

/-- **Who looks at a resource finds the latest write that was issued before him.** -/
theorem Guarded.found (h : Guarded event issued)
    (hevent : ∀ a m, writes a = some m → event a = m) {j : Nat}
    (hexec : Execution issued (j :: done)) {s : Stream} {b : Action}
    (hj : issued[j]? = some (.act s b)) (hb : event b = m) {a : Action}
    (hlatest : latest writes m (issued.take j) = some a) :
    ∃ k s', issued[k]? = some (.act s' a) ∧ k ∈ done
      ∧ holder writes issued m done = some k := by
  obtain ⟨k, s', hk, hwrites, hlater⟩ := exists_latest hlatest
  have hlt : k < j := by
    have := (List.getElem?_eq_some_iff.mp hk).1
    rw [List.length_take] at this
    omega
  rw [List.getElem?_take_of_lt hlt] at hk
  have hwritten : written writes issued k = some m := by
    rw [written, hk]
    exact hwrites
  have hdone : k ∈ done := by
    have hbefore := h.before hk hj ((hevent a m hwrites).trans hb.symm) hlt
    rcases List.mem_cons.mp (hbefore.mem_done hexec (List.mem_cons_self ..)) with heq | hmem
    · omega
    · exact hmem
  refine ⟨k, s', hk, hdone, h.holder_eq hevent hexec.1 hdone hwritten (fun k' hk' hw => ?_)⟩
  by_contra hgt
  rcases Nat.lt_trichotomy k' j with hbelow | rfl | habove
  · -- it would be a later write that was issued before him
    refine hlater k' (Nat.not_le.mp hgt) ?_
    rw [written, List.getElem?_take_of_lt hbelow]
    exact hw
  · exact hexec.2.2.1 hk'
  · -- it has to wait for him
    obtain ⟨c, hc, hcw⟩ := Option.bind_eq_some_iff.mp hw
    obtain ⟨d, hd, haction⟩ := Option.bind_eq_some_iff.mp hc
    obtain ⟨s'', rfl⟩ := Command.action_eq_some.mp haction
    have hsame : event b = event c := hb.trans (hevent c m hcw).symm
    exact hexec.not_before hk' (h.before hj hd hsame habove)

end Holder

end TpEventOrder
