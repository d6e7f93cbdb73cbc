import Mathlib.Data.List.AList
import Mathlib.Tactic.Common
import Tensorpipe.OperationSideProofs

/-! # Logs, and operations with a history

    A subject that keeps a log of what happened can be asked WHEN something happened: whenever
    an event of one kind came, which events had come before it.

    Of the events of a log, those that concern one operation are its history.  An operation
    does one thing after the other, so that its state tells its history, whatever the others
    did in the meantime.

    This file names no subject.  It has

    * `emplace`, for a subject that keeps a map;
    * `Always` and `history`;
    * `Tracked`: the state of each stored operation tells its history, and those that left
      the queue have a complete one;
    * `Queue` and `Quiet`: a queue between two tasks, and the rules for the two walks. -/

namespace TpStateMachine

-- ── Maps ─────────────────────────────────────────────────────────────────────

section Maps

variable {K V : Type} [DecidableEq K]

/-- A map is left as it is when the key is there already. -/
def emplace (key : K) (value : V) (m : AList (fun _ : K => V)) : AList (fun _ : K => V) :=
  if key ∈ m then m else m.insert key value

/-- What is found afterwards, when the key was free. -/
theorem lookup_emplace {key : K} {value : V} {m : AList (fun _ : K => V)}
    (h : m.lookup key = none) (key' : K) :
    (emplace key value m).lookup key' = if key' = key then some value else m.lookup key' := by
  rw [emplace, if_neg (AList.lookup_eq_none.mp h)]
  by_cases hkey : key' = key
  · subst hkey
    rw [if_pos rfl, AList.lookup_insert]
  · rw [if_neg hkey, AList.lookup_insert_ne hkey]

end Maps

-- ── Logs ─────────────────────────────────────────────────────────────────────

section Logs

variable {E : Type} {Q : List E → E → Prop} {log : List E}

/-- Whenever an event came, the log before it was as `Q` asks. -/
def Always (Q : List E → E → Prop) (log : List E) : Prop :=
  ∀ before e after, log = before ++ e :: after → Q before e

theorem always_nil : Always Q ([] : List E) := by
  intro before e after hlog
  cases before with
  | nil => exact nomatch hlog
  | cons hd tl => exact nomatch hlog

theorem always_snoc {e : E} : Always Q (log ++ [e]) ↔ Always Q log ∧ Q log e := by
  constructor
  · intro h
    refine ⟨fun before e' after hlog => h before e' (after ++ [e]) ?_, h log e [] rfl⟩
    rw [hlog, List.append_assoc, List.cons_append]
  · rintro ⟨hold, hnew⟩ before e' after hlog
    rcases List.eq_nil_or_concat after with rfl | ⟨rest, last, rfl⟩
    · obtain ⟨rfl, hlast⟩ := List.append_inj' hlog rfl
      obtain ⟨rfl, -⟩ := List.cons.inj hlast
      exact hnew
    · rw [List.concat_eq_append, ← List.cons_append, ← List.append_assoc] at hlog
      exact hold before e' rest (List.append_inj' hlog rfl).1

/-- Events that `Q` asks nothing of can be added at will. -/
theorem always_append (h : Always Q log) {es : List E} (hes : ∀ e ∈ es, ∀ before, Q before e) :
    Always Q (log ++ es) := by
  induction es generalizing log with
  | nil => rw [List.append_nil]; exact h
  | cons e rest ih =>
      rw [List.append_cons]
      refine ih (always_snoc.mpr ⟨h, hes e (List.mem_cons_self ..) log⟩) ?_
      exact fun e' he' => hes e' (List.mem_cons_of_mem _ he')

variable {about : E → Option Nat} {n : Nat}

/-- The events of a log that concern one number. -/
def history (about : E → Option Nat) (n : Nat) (log : List E) : List E :=
  log.filter (fun e => about e == some n)

theorem history_append (es : List E) :
    history about n (log ++ es) = history about n log ++ history about n es :=
  List.filter_append ..

theorem mem_history {e : E} : e ∈ history about n log ↔ e ∈ log ∧ about e = some n := by
  rw [history, List.mem_filter, beq_iff_eq]

theorem history_other {es : List E} (h : ∀ e ∈ es, about e ≠ some n) :
    history about n es = [] := by
  rw [history, List.filter_eq_nil_iff]
  intro e he hn
  exact h e he (beq_iff_eq.mp hn)

@[simp] theorem history_nil : history about n ([] : List E) = [] := rfl

theorem history_cons {es : List E} {e : E} (he : about e = some n) :
    history about n (e :: es) = e :: history about n es := by
  rw [history, List.filter_cons, he, if_pos (beq_self_eq_true _)]
  rfl

theorem history_skip {es : List E} {e : E} (he : about e = none) :
    history about n (e :: es) = history about n es := by
  rw [history, List.filter_cons, he]
  rfl

/-- What is read off the events of one number is read off its history. -/
theorem filterMap_history {β : Type} {f : E → Option β} (hf : ∀ e, f e ≠ none → about e = some n)
    (log : List E) : (history about n log).filterMap f = log.filterMap f := by
  induction log with
  | nil => rfl
  | cons e rest ih =>
      cases he : f e with
      | none =>
          rw [List.filterMap_cons_none he, ← ih, history, List.filter_cons]
          by_cases hn : (about e == some n) = true
          · rw [if_pos hn, List.filterMap_cons_none he]
            rfl
          · rw [if_neg hn]
            rfl
      | some b =>
          have hn := hf e (by rw [he]; nofun)
          rw [history_cons hn, List.filterMap_cons_some he, List.filterMap_cons_some he, ih]

/-- A moment of the log is a moment of the history of the number that it concerns. -/
theorem history_split {before after : List E} {e : E} (he : about e = some n) :
    history about n (before ++ e :: after)
      = history about n before ++ e :: history about n after := by
  rw [history_append, history_cons he]

end Logs

-- ── Tracked queues ───────────────────────────────────────────────────────────

section Tracked

variable {Op State E : Type} [Operation Op State] {about : E → Option Nat}
  {Stored Stored' : Op → List E → Prop} {Gone Gone' : Nat → List E → Prop}
  {next : Nat} {log es : List E} {ops pre post : List Op} {op op' : Op}

/-- `Stored` says which histories an operation in the queue can have, `Gone` those that left
    it.  A number that is still to come has none. -/
structure Tracked (about : E → Option Nat) (Stored : Op → List E → Prop)
    (Gone : Nat → List E → Prop) (next : Nat) (log : List E) (ops : List Op) : Prop where
  numbered : Numbered next ops
  stored : ∀ op ∈ ops, Stored op (history about (sequenceNumber op) log)
  gone : ∀ n < next, (∀ op ∈ ops, sequenceNumber op ≠ n) → Gone n (history about n log)
  fresh : ∀ n, next ≤ n → history about n log = []

theorem Tracked.lt_next (h : Tracked about Stored Gone next log ops) (hop : op ∈ ops) :
    sequenceNumber op < next := by
  obtain ⟨a, b, rfl⟩ := List.append_of_mem hop
  have := numbered_mid h.numbered
  omega

/-- Every number that has been given out is that of a stored operation or of one that left. -/
theorem Tracked.cases_lt (h : Tracked about Stored Gone next log ops) {n : Nat} (hn : n < next) :
    (∃ o ∈ ops, sequenceNumber o = n ∧ Stored o (history about n log))
      ∨ ((∀ o ∈ ops, sequenceNumber o ≠ n) ∧ Gone n (history about n log)) := by
  by_cases hex : ∃ o ∈ ops, sequenceNumber o = n
  · obtain ⟨o, ho, rfl⟩ := hex
    exact Or.inl ⟨o, ho, rfl, h.stored o ho⟩
  · have hno : ∀ o ∈ ops, sequenceNumber o ≠ n := fun o ho hon => hex ⟨o, ho, hon⟩
    exact Or.inr ⟨hno, h.gone n hn hno⟩

/-- One operation moves on, and its history with it. -/
theorem tracked_replace (h : Tracked about Stored Gone next log (pre ++ op :: post))
    (hseq : sequenceNumber op' = sequenceNumber op)
    (hes : ∀ e ∈ es, ∀ m, about e = some m → m = sequenceNumber op)
    (hstored : Stored op' (history about (sequenceNumber op) log
      ++ history about (sequenceNumber op) es)) :
    Tracked about Stored Gone next (log ++ es) (pre ++ op' :: post) := by
  have hother : ∀ m, m ≠ sequenceNumber op → history about m (log ++ es) = history about m log := by
    intro m hm
    rw [history_append, history_other (fun e he hon => hm (hes e he m hon)), List.append_nil]
  refine ⟨numbered_set h.numbered hseq, ?_, ?_, ?_⟩
  · intro o ho
    rcases List.mem_append.mp ho with hpre | hmid
    · rw [hother _ (numbered_ne h.numbered (Or.inl hpre))]
      exact h.stored o (List.mem_append_left _ hpre)
    · rcases List.mem_cons.mp hmid with rfl | hpost
      · rw [hseq, history_append]
        exact hstored
      · rw [hother _ (numbered_ne h.numbered (Or.inr hpost))]
        exact h.stored o (List.mem_append_right _ (List.mem_cons_of_mem _ hpost))
  · intro n hn hno
    have hne : n ≠ sequenceNumber op := by
      rintro rfl
      exact hno op' (List.mem_append_right _ (List.mem_cons_self ..)) hseq
    rw [hother n hne]
    refine h.gone n hn (fun o ho => ?_)
    rcases List.mem_append.mp ho with hpre | hmid
    · exact hno o (List.mem_append_left _ hpre)
    · rcases List.mem_cons.mp hmid with rfl | hpost
      · exact Ne.symm hne
      · exact hno o (List.mem_append_right _ (List.mem_cons_of_mem _ hpost))
  · intro n hn
    have hlt := h.lt_next (List.mem_append_right pre (List.mem_cons_self (a := op) (l := post)))
    rw [hother n (by omega)]
    exact h.fresh n hn

/-- The front leaves. -/
theorem tracked_pop (h : Tracked about Stored Gone next log (op :: post))
    (hgone : ∀ w, Stored op w → Gone (sequenceNumber op) w) :
    Tracked about Stored Gone next log post := by
  refine ⟨h.numbered.2, fun o ho => h.stored o (List.mem_cons_of_mem _ ho), ?_, h.fresh⟩
  intro n hn hno
  by_cases hfront : n = sequenceNumber op
  · subst hfront
    exact hgone _ (h.stored op (List.mem_cons_self ..))
  · refine h.gone n hn (fun o ho => ?_)
    rcases List.mem_cons.mp ho with rfl | hrest
    · exact Ne.symm hfront
    · exact hno o hrest

/-- A new operation at the back. -/
theorem tracked_push (h : Tracked about Stored Gone next log ops)
    (hnumber : sequenceNumber op = next) (hes : ∀ e ∈ es, ∀ m, about e = some m → m = next)
    (hstored : Stored op (history about next es)) :
    Tracked about Stored Gone (next + 1) (log ++ es) (ops ++ [op]) := by
  have hother : ∀ m, m ≠ next → history about m (log ++ es) = history about m log := by
    intro m hm
    rw [history_append, history_other (fun e he hon => hm (hes e he m hon)), List.append_nil]
  refine ⟨numbered_snoc h.numbered hnumber, ?_, ?_, ?_⟩
  · intro o ho
    rcases List.mem_append.mp ho with hold | hnew
    · rw [hother _ (Nat.ne_of_lt (h.lt_next hold))]
      exact h.stored o hold
    · rw [List.mem_singleton.mp hnew, hnumber, history_append, h.fresh next (Nat.le_refl _)]
      exact hstored
  · intro n hn hno
    have hne : n ≠ next := by
      rintro rfl
      exact hno op (List.mem_append_right _ (List.mem_singleton_self _)) hnumber
    rw [hother n hne]
    exact h.gone n (by omega) (fun o ho => hno o (List.mem_append_left _ ho))
  · intro n hn
    rw [hother n (by omega)]
    exact h.fresh n (by omega)

/-- Nothing moves in the queue, but more is known of the histories. -/
theorem tracked_extend (h : Tracked about Stored Gone next log ops)
    (hes : ∀ e ∈ es, ∀ m, about e = some m → m < next)
    (hstored : ∀ op ∈ ops, ∀ w, Stored op w →
      Stored' op (w ++ history about (sequenceNumber op) es))
    (hgone : ∀ n w, Gone n w → Gone' n (w ++ history about n es)) :
    Tracked about Stored' Gone' next (log ++ es) ops := by
  refine ⟨h.numbered, ?_, ?_, ?_⟩
  · intro o ho
    rw [history_append]
    exact hstored o ho _ (h.stored o ho)
  · intro n hn hno
    rw [history_append]
    exact hgone n _ (h.gone n hn hno)
  · intro n hn
    rw [history_append, h.fresh n hn, List.nil_append]
    exact history_other (fun e he hon => Nat.not_lt.mpr hn (hes e he n hon))

/-- Events that concern no operation. -/
theorem tracked_append (h : Tracked about Stored Gone next log ops)
    (hes : ∀ e ∈ es, about e = none) : Tracked about Stored Gone next (log ++ es) ops := by
  have hnone : ∀ n, history about n es = [] :=
    fun n => history_other (fun e he hon => (nomatch (hes e he).symm.trans hon))
  refine tracked_extend h (fun e he m hon => (nomatch (hes e he).symm.trans hon)) ?_ ?_
  · intro o _ w hw
    rw [hnone, List.append_nil]
    exact hw
  · intro n w hw
    rw [hnone, List.append_nil]
    exact hw

theorem tracked_imp (h : Tracked about Stored Gone next log ops)
    (hstored : ∀ op w, Stored op w → Stored' op w) (hgone : ∀ n w, Gone n w → Gone' n w) :
    Tracked about Stored' Gone' next log ops :=
  ⟨h.numbered, fun o ho => hstored _ _ (h.stored o ho), fun n hn hno => hgone _ _ (h.gone n hn hno),
    h.fresh⟩

end Tracked

-- ── Queues ───────────────────────────────────────────────────────────────────

/-- A queue with what its operations act on.  `next` is the number of the next one. -/
structure Queue (Op σ : Type) where
  next : Nat := 0
  ops : List Op := []
  outside : σ
deriving DecidableEq, Repr

section Queues

variable {Op State σ : Type} [Operation Op State] [DecidableEq State]

namespace Queue

/-- Advances the operations from a given one on. -/
def advance (ts : List (Transition σ Op State)) (x : Queue Op σ) (n : Nat) : Queue Op σ :=
  let y := (advanceOperation ts x.outside x.ops n).state
  { x with outside := y.1, ops := y.2 }

/-- Advances the operations from the first one on. -/
def advanceAll (ts : List (Transition σ Op State)) (x : Queue Op σ) : Queue Op σ :=
  let y := (advanceAllOperations ts x.outside x.ops).state
  { x with outside := y.1, ops := y.2 }

end Queue

/-- A queue between two tasks: its invariant holds, its front is not finished, and nothing is
    enabled. -/
structure Quiet (ts : List (Transition σ Op State)) (P : σ → List Op → Prop) (x : Queue Op σ) :
    Prop where
  inv : P x.outside x.ops
  frontOpen : FrontOpen x.ops
  stable : Stable ts x.ops

variable {ts : List (Transition σ Op State)} {P : σ → List Op → Prop} {x : Queue Op σ} {n : Nat}

theorem advanceOneOperation_open (hpres : Preserves ts P (fun _ _ => False)) {s : σ}
    {pre post : List Op} {op : Op} {y : σ × List Op × Bool}
    (h : P s (pre ++ op :: post) ∧ FrontOpen (pre ++ op :: post))
    (hadv : advanceOneOperation ts s (pre ++ op :: post) pre.length op = .returns y) :
    P y.1 y.2.1 ∧ FrontOpen y.2.1 := by
  have hinv := advanceOneOperation_preserves hpres h.1
  rw [hadv] at hinv
  exact ⟨hinv, advanceOneOperation_frontOpen h.2 hadv⟩

/-- **Advance rule.**  Only one operation may be enabled, and it is advanced. -/
theorem quiet_advance (hpres : Preserves ts P (fun _ _ => False)) (hf : Forward ts)
    (hinv : P x.outside x.ops) (hopen : FrontOpen x.ops)
    (hmem : ∃ o ∈ x.ops, sequenceNumber o = n)
    (hch : Chained (fun p o => sequenceNumber o = n ∨ ¬ Enabled ts p o) (finished Op) x.ops) :
    Quiet ts P (x.advance ts n) := by
  have hpost := advanceOperation_preserves hpres n hinv
  obtain ⟨next, hnum⟩ := hpres.numbered _ _ hinv
  obtain ⟨o, ho, rfl⟩ := hmem
  rw [Queue.advance]
  cases hadv : advanceOperation ts x.outside x.ops (sequenceNumber o) with
  | throws y => rw [hadv] at hpost; exact hpost.elim
  | returns y =>
      obtain ⟨hinv', hopen'⟩ := advanceOperation_induct
        (P := fun s ops => P s ops ∧ FrontOpen ops) (fun s ops h => hpres.numbered s ops h.1)
        (fun _ _ _ _ _ hz hone => advanceOneOperation_open hpres hz hone) ⟨hinv, hopen⟩ hadv
      exact ⟨hinv', hopen', advanceOperation_stable hf hnum (numbered_reach hnum ho) hch hadv⟩

/-- **Advance-all rule.**  The front is not enabled, so that nothing cuts the walk short. -/
theorem quiet_advanceAll (hpres : Preserves ts P (fun _ _ => False)) (hf : Forward ts)
    (hinv : P x.outside x.ops) (hopen : FrontOpen x.ops)
    (hfront : ∀ front rest, x.ops = front :: rest → ¬ Enabled ts (finished Op) front) :
    Quiet ts P (x.advanceAll ts) := by
  have hpost := advanceAllOperations_preserves hpres hinv
  obtain ⟨next, hnum⟩ := hpres.numbered _ _ hinv
  rw [Queue.advanceAll]
  cases hadv : advanceAllOperations ts x.outside x.ops with
  | throws y => rw [hadv] at hpost; exact hpost.elim
  | returns y =>
      obtain ⟨hinv', hopen'⟩ := advanceAllOperations_induct
        (P := fun s ops => P s ops ∧ FrontOpen ops) (fun s ops h => hpres.numbered s ops h.1)
        (fun _ _ _ _ _ hz hone => advanceOneOperation_open hpres hz hone) ⟨hinv, hopen⟩ hadv
      refine ⟨hinv', hopen', ?_⟩
      cases hops : x.ops with
      | nil =>
          rw [hops] at hadv
          obtain rfl := Outcome.returns.inj hadv
          trivial
      | cons front rest =>
          rw [hops] at hadv hnum
          refine advanceAllOperations_stable_of_front hf hnum (fun z hz => ?_) hadv
          rw [transition_of_not_enabled (hfront front rest hops)] at hz
          obtain rfl := Outcome.returns.inj hz
          exact hopen front rest hops

end Queues

end TpStateMachine
