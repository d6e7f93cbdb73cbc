import Mathlib.Data.List.AList
import Mathlib.Logic.Relation
import Tensorpipe.HistoryProofs

/-! # One-shot registrations

    Somebody waits for something that has a number, and leaves a callback under that number with
    a broker.  What arrives carries a number; the broker hands it to whoever waits for that
    number, and forgets about him.  Who waits can change his mind.  When the broker fails,
    everybody who is waiting is told so, and whoever comes later is told at once.

    This file names no broker.  The idea: the events about one number are the life of one
    registration, which is a word of a small automaton (`Life`), whatever happens to the other
    numbers in the meantime. -/

namespace TpRegistration

open TpStateMachine

-- ── Registries ───────────────────────────────────────────────────────────────

/-- `hello` is the arrival of something that carries a number. -/
inductive Event (F E C : Type) where
  | registered (id : Nat) (fn : F)
  | unregistered (id : Nat)
  | hello (id : Nat) (connection : C)
  | called (id : Nat) (fn : F) (result : Except E C)
  | failed (error : E)

variable {F E C : Type}

/-- The request that an event is about. -/
def Event.about : Event F E C → Option Nat
  | .registered id _ | .unregistered id | .hello id _ | .called id _ _ => some id
  | .failed _ => none

/-- The requests that wait, with what has happened to all of them. -/
structure Registry (F E C : Type) where
  error : Option E := none
  nextId : Nat := 0
  entries : AList (fun _ : Nat => F) := ∅
  log : List (Event F E C) := []

namespace Registry

/-- Adds an event to the log. -/
def emit (ev : Event F E C) (r : Registry F E C) : Registry F E C := { r with log := r.log ++ [ev] }

/-- A new request, which gets the error at once if there is one. -/
def register (fn : F) (r : Registry F E C) : Registry F E C :=
  let id := r.nextId
  let r := { r.emit (.registered id fn) with nextId := id + 1 }
  match r.error with
  | some e => r.emit (.called id fn (.error e))
  | none => { r with entries := emplace id fn r.entries }

/-- Withdraws a request. -/
def unregister (id : Nat) (r : Registry F E C) : Registry F E C :=
  { r.emit (.unregistered id) with entries := r.entries.erase id }

/-- The connection of a request that waits goes to its callback. -/
def deliver (id : Nat) (connection : C) (r : Registry F E C) : Registry F E C :=
  let r := r.emit (.hello id connection)
  match r.entries.lookup id with
  | some fn =>
      { r with entries := r.entries.erase id }.emit (.called id fn (.ok connection))
  | none => r

/-- Everybody who is waiting is told. -/
def flush (e : E) (r : Registry F E C) : Registry F E C :=
  { r with
    entries := ∅
    log := r.log ++ r.entries.entries.map (fun p => .called p.1 p.2 (.error e)) }

/-- Sets the error. -/
def fail (e : E) (r : Registry F E C) : Registry F E C :=
  { r with error := some e, log := r.log ++ [.failed e] }

/-- Withdraws requests, one after the other. -/
def withdraw (ids : List Nat) (r : Registry F E C) : Registry F E C :=
  ids.foldl (fun r id => r.unregister id) r

/-- `ids` are the registrations that are withdrawn between the failure and the answers. -/
def setError (e : E) (ids : List Nat) (r : Registry F E C) : Registry F E C :=
  match r.error with
  | some _ => r
  | none => ((r.fail e).withdraw ids).flush e

/-- The order in which a map is traversed may change at any time. -/
inductive Step : Registry F E C → Registry F E C → Prop where
  | register (r : Registry F E C) (fn : F) : Step r (r.register fn)
  | unregister (r : Registry F E C) (id : Nat) : Step r (r.unregister id)
  | deliver (r : Registry F E C) (id : Nat) (connection : C) (herror : r.error = none) :
      Step r (r.deliver id connection)
  | setError (r : Registry F E C) (e : E) (ids : List Nat) : Step r (r.setError e ids)
  | rehash (r : Registry F E C) (entries : AList (fun _ : Nat => F))
      (hperm : entries.entries.Perm r.entries.entries) : Step r { r with entries }

/-- The registries that can be reached from the empty one. -/
def Reachable : Registry F E C → Prop := Relation.ReflTransGen Step {}

end Registry

-- ── Lives ────────────────────────────────────────────────────────────────────

/-- What has become of a request. -/
inductive Status (F : Type) where
  | unknown
  | waiting (fn : F)
  | ended

/-- Somebody withdraws, or something arrives, under a number that nobody waits for. -/
def Event.Stray (ev : Event F E C) : Prop :=
  match ev with
  | .unregistered _ | .hello _ _ => True
  | _ => False

/-- The events about one number. -/
inductive Life (id : Nat) : Status F → List (Event F E C) → Prop where
  | nil : Life id .unknown []
  | strayUnknown {l : List (Event F E C)} {ev : Event F E C} (h : Life id .unknown l)
      (hev : ev.Stray) : Life id .unknown (l ++ [ev])
  | registered {l : List (Event F E C)} (h : Life id .unknown l) (fn : F) :
      Life id (.waiting fn) (l ++ [.registered id fn])
  | unregistered {l : List (Event F E C)} {fn : F} (h : Life id (.waiting fn) l) :
      Life id .ended (l ++ [.unregistered id])
  | served {l : List (Event F E C)} {fn : F} (h : Life id (.waiting fn) l) (connection : C) :
      Life id .ended (l ++ [.hello id connection, .called id fn (.ok connection)])
  | failed {l : List (Event F E C)} {fn : F} (h : Life id (.waiting fn) l) (e : E) :
      Life id .ended (l ++ [.called id fn (.error e)])
  | strayEnded {l : List (Event F E C)} {ev : Event F E C} (h : Life id .ended l)
      (hev : ev.Stray) : Life id .ended (l ++ [ev])

/-- How often a callback was called. -/
def calls (l : List (Event F E C)) : List (F × Except E C) :=
  l.filterMap (fun ev => match ev with
    | .called _ fn result => some (fn, result)
    | _ => none)

/-- The calls of two logs. -/
theorem calls_append (l l' : List (Event F E C)) : calls (l ++ l') = calls l ++ calls l' :=
  List.filterMap_append ..

/-- An event that calls nobody. -/
theorem calls_stray {ev : Event F E C} (hev : ev.Stray) : calls [ev] = [] := by
  cases ev with
  | unregistered id => rfl
  | hello id connection => rfl
  | registered id fn => cases hev
  | called id fn result => cases hev
  | failed e => cases hev

/-- A callback is not called while its registration waits, and at most once in its life. -/
theorem Life.calls_le {id : Nat} {status : Status F} {l : List (Event F E C)}
    (h : Life id status l) :
    (calls l).length ≤ 1 ∧ (status ≠ .ended → calls l = []) := by
  induction h with
  | nil => exact ⟨Nat.zero_le 1, fun _ => rfl⟩
  | strayUnknown _ hev ih =>
      rw [calls_append, calls_stray hev, List.append_nil]
      exact ih
  | registered _ fn ih =>
      have hcalls := ih.2 nofun
      rw [calls_append, hcalls]
      exact ⟨Nat.zero_le 1, fun _ => rfl⟩
  | unregistered _ ih =>
      rw [calls_append, ih.2 nofun]
      exact ⟨Nat.zero_le 1, fun hne => absurd rfl hne⟩
  | served _ connection ih =>
      rw [calls_append, ih.2 nofun]
      exact ⟨Nat.le_refl 1, fun hne => absurd rfl hne⟩
  | failed _ e ih =>
      rw [calls_append, ih.2 nofun]
      exact ⟨Nat.le_refl 1, fun hne => absurd rfl hne⟩
  | strayEnded _ hev ih =>
      rw [calls_append, calls_stray hev, List.append_nil]
      exact ih

/-- A stray event changes nothing, when nobody waits. -/
theorem Life.stray {id : Nat} {status : Status F} {l : List (Event F E C)} {ev : Event F E C}
    (h : Life id status l) (hnone : ∀ fn, status ≠ .waiting fn) (hev : ev.Stray) :
    Life id status (l ++ [ev]) := by
  cases status with
  | unknown => exact .strayUnknown h hev
  | waiting fn => exact absurd rfl (hnone fn)
  | ended => exact .strayEnded h hev

-- ── The life of each number ──────────────────────────────────────────────────

namespace Registry

variable {r : Registry F E C}

/-- Without an error, a request waits. -/
theorem register_ok (fn : F) (h : r.error = none) :
    r.register fn = { r with
      nextId := r.nextId + 1
      entries := emplace r.nextId fn r.entries
      log := r.log ++ [.registered r.nextId fn] } := by
  rw [register]
  simp only [emit, h]

/-- With an error, a request is answered at once. -/
theorem register_error (fn : F) {e : E} (h : r.error = some e) :
    r.register fn = { r with
      nextId := r.nextId + 1
      log := r.log ++ [.registered r.nextId fn, .called r.nextId fn (.error e)] } := by
  rw [register]
  simp only [emit, h, List.append_assoc, List.cons_append, List.nil_append]

/-- A connection that no request waits for is dropped. -/
theorem deliver_none {id : Nat} (connection : C) (h : r.entries.lookup id = none) :
    r.deliver id connection = r.emit (.hello id connection) := by
  rw [deliver]
  simp only [emit, h]

/-- A connection goes to the request that waits for it. -/
theorem deliver_some {id : Nat} {fn : F} (connection : C) (h : r.entries.lookup id = some fn) :
    r.deliver id connection = { r with
      entries := r.entries.erase id
      log := r.log ++ [.hello id connection, .called id fn (.ok connection)] } := by
  rw [deliver]
  simp only [emit, h, List.append_assoc, List.cons_append, List.nil_append]

/-- The status of a request, read off the registry. -/
def status (r : Registry F E C) (id : Nat) : Status F :=
  if r.nextId ≤ id then .unknown
  else match r.entries.lookup id with
    | some fn => .waiting fn
    | none => .ended

/-- Identifiers are unknown before they are given out. -/
theorem status_unknown {id : Nat} (h : r.nextId ≤ id) : r.status id = .unknown := if_pos h

/-- A request among the entries waits. -/
theorem status_waiting {id : Nat} {fn : F} (h : id < r.nextId) (hfn : r.entries.lookup id = some fn) :
    r.status id = .waiting fn := by
  rw [status, if_neg (Nat.not_le.mpr h), hfn]

/-- A request that is no longer among the entries has ended. -/
theorem status_ended {id : Nat} (h : id < r.nextId) (hfn : r.entries.lookup id = none) :
    r.status id = .ended := by
  rw [status, if_neg (Nat.not_le.mpr h), hfn]

/-- Only a request among the entries waits. -/
theorem status_ne_waiting {id : Nat} (hfn : r.entries.lookup id = none) (fn : F) :
    r.status id ≠ .waiting fn := by
  by_cases hid : r.nextId ≤ id
  · rw [status_unknown hid]
    nofun
  · rw [status_ended (Nat.not_le.mp hid) hfn]
    nofun

/-- The status depends on the entries and on the next identifier. -/
theorem status_congr {r' : Registry F E C} {id : Nat} (hnext : r'.nextId = r.nextId)
    (hlookup : r'.entries.lookup id = r.entries.lookup id) : r'.status id = r.status id := by
  rw [status, status, hnext, hlookup]

/-- Every request has lived as its status says. -/
structure Lived (r : Registry F E C) : Prop where
  below : ∀ id fn, r.entries.lookup id = some fn → id < r.nextId
  lives : ∀ id, Life id (r.status id) (history Event.about id r.log)

/-- The next identifier is not in use. -/
theorem Lived.lookup_fresh (h : Lived r) {id : Nat} (hid : r.nextId ≤ id) :
    r.entries.lookup id = none := by
  cases hfn : r.entries.lookup id with
  | none => rfl
  | some fn => exact absurd (h.below id fn hfn) (Nat.not_lt.mpr hid)

/-- No request has lived yet. -/
theorem lived_init : Lived ({} : Registry F E C) where
  below := fun _ _ h => nomatch h
  lives := fun _ => .nil

/-- A step that concerns one number only. -/
theorem lived_one {r' : Registry F E C} {es : List (Event F E C)} (h : Lived r) (id : Nat)
    {status : Status F} (hlog : r'.log = r.log ++ es) (hes : ∀ ev ∈ es, ev.about = some id)
    (hother : ∀ n ≠ id, r'.status n = r.status n)
    (hbelow : ∀ n fn, r'.entries.lookup n = some fn → n < r'.nextId)
    (hstatus : r'.status id = status)
    (hlife : Life id status (history Event.about id r.log ++ es)) : Lived r' where
  below := hbelow
  lives := by
    intro n
    rw [hlog, history_append]
    by_cases hn : n = id
    · have hall : history Event.about n es = es :=
        List.filter_eq_self.mpr (fun ev hev => by rw [hes ev hev, hn]; exact beq_self_eq_true _)
      rw [hall, hn, hstatus]
      exact hlife
    · have hnone : history Event.about n es = [] :=
        history_other (fun ev hev => by
          rw [hes ev hev]
          exact fun heq => hn (Option.some.inj heq).symm)
      rw [hnone, List.append_nil, hother n hn]
      exact h.lives n

/-- A number is taken. -/
theorem status_taken {r' : Registry F E C} (hnext : r'.nextId = r.nextId + 1) {n : Nat}
    (hn : n ≠ r.nextId) (hlookup : r'.entries.lookup n = r.entries.lookup n) :
    r'.status n = r.status n := by
  rcases Nat.lt_or_ge n r.nextId with hlt | hge
  · have hlt' : n < r'.nextId := by omega
    rw [status, status, if_neg (Nat.not_le.mpr hlt), if_neg (Nat.not_le.mpr hlt'), hlookup]
  · rw [status_unknown hge, status_unknown (by omega)]

/-- A new request begins its life. -/
theorem lived_register (h : Lived r) (fn : F) : Lived (r.register fn) := by
  have hfresh := h.lookup_fresh (Nat.le_refl r.nextId)
  have hlife := h.lives r.nextId
  rw [status_unknown (Nat.le_refl _)] at hlife
  cases herror : r.error with
  | none =>
      have hself : (emplace r.nextId fn r.entries).lookup r.nextId = some fn := by
        rw [lookup_emplace hfresh, if_pos rfl]
      have hne : ∀ n ≠ r.nextId,
          (emplace r.nextId fn r.entries).lookup n = r.entries.lookup n := fun n hn => by
        rw [lookup_emplace hfresh, if_neg hn]
      rw [register_ok fn herror]
      refine lived_one h r.nextId rfl (List.forall_mem_singleton.mpr rfl) ?_ ?_
        (status_waiting (Nat.lt_succ_self _) hself) (.registered hlife fn)
      · exact fun n hn => status_taken rfl hn (hne n hn)
      · intro n fn' hlookup
        change (emplace r.nextId fn r.entries).lookup n = some fn' at hlookup
        by_cases hn : n = r.nextId
        · exact hn ▸ Nat.lt_succ_self _
        · rw [hne n hn] at hlookup
          exact Nat.lt_succ_of_lt (h.below n fn' hlookup)
  | some e =>
      have hboth := Life.failed (.registered hlife fn) e
      rw [List.append_assoc] at hboth
      rw [register_error fn herror]
      refine lived_one h r.nextId rfl ?_ ?_ ?_ (status_ended (Nat.lt_succ_self _) hfresh) hboth
      · exact List.forall_mem_cons.mpr ⟨rfl, List.forall_mem_singleton.mpr rfl⟩
      · exact fun n hn => status_taken rfl hn rfl
      · exact fun n fn' hlookup => Nat.lt_succ_of_lt (h.below n fn' hlookup)

/-- Erasing an entry leaves only identifiers that were given out. -/
theorem Lived.below_erase (h : Lived r) (id : Nat) {n : Nat} {fn : F}
    (hlookup : (r.entries.erase id).lookup n = some fn) : n < r.nextId := by
  by_cases hn : n = id
  · rw [hn, AList.lookup_erase] at hlookup
    cases hlookup
  · rw [AList.lookup_erase_ne hn] at hlookup
    exact h.below n fn hlookup

/-- Withdrawing a request ends its life. -/
theorem lived_unregister (h : Lived r) (id : Nat) : Lived (r.unregister id) := by
  have hlife := h.lives id
  have herased : (r.entries.erase id).lookup id = none := AList.lookup_erase ..
  have hother : ∀ n ≠ id, (r.unregister id).status n = r.status n :=
    fun n hn => status_congr rfl (AList.lookup_erase_ne hn)
  cases hfn : r.entries.lookup id with
  | none =>
      have hsame : (r.unregister id).status id = r.status id :=
        status_congr rfl (herased.trans hfn.symm)
      exact lived_one h id rfl (List.forall_mem_singleton.mpr rfl) hother
        (fun n fn hlookup => h.below_erase id hlookup) hsame
        (hlife.stray (status_ne_waiting hfn) trivial)
  | some fn =>
      have hid := h.below id fn hfn
      rw [status_waiting hid hfn] at hlife
      exact lived_one h id rfl (List.forall_mem_singleton.mpr rfl) hother
        (fun n fn hlookup => h.below_erase id hlookup) (status_ended hid herased)
        (.unregistered hlife)

/-- Answering a request ends its life. -/
theorem lived_deliver (h : Lived r) (id : Nat) (connection : C) :
    Lived (r.deliver id connection) := by
  have hlife := h.lives id
  cases hfn : r.entries.lookup id with
  | none =>
      rw [deliver_none connection hfn]
      exact lived_one h id rfl (List.forall_mem_singleton.mpr rfl) (fun _ _ => rfl) h.below rfl
        (hlife.stray (status_ne_waiting hfn) trivial)
  | some fn =>
      have hid := h.below id fn hfn
      rw [status_waiting hid hfn] at hlife
      rw [deliver_some connection hfn]
      refine lived_one h id rfl ?_ ?_ (fun n fn' hlookup => h.below_erase id hlookup)
        (status_ended hid (AList.lookup_erase ..)) (.served hlife connection)
      · exact List.forall_mem_cons.mpr ⟨rfl, List.forall_mem_singleton.mpr rfl⟩
      · exact fun n hn => status_congr rfl (AList.lookup_erase_ne hn)

/-- The answers to everybody who was waiting, for one number. -/
theorem history_answers (e : E) (id : Nat) (l : List (Sigma (fun _ : Nat => F))) (hl : l.NodupKeys) :
    history Event.about id (l.map (fun p => (.called p.1 p.2 (.error e) : Event F E C)))
      = match l.dlookup id with
        | some fn => [.called id fn (.error e)]
        | none => [] := by
  induction l with
  | nil => rfl
  | cons p rest ih =>
      obtain ⟨hp, hrest⟩ := List.nodupKeys_cons.mp hl
      obtain ⟨n, fn⟩ := p
      by_cases hn : n = id
      · subst hn
        have hnone : rest.dlookup n = none := List.dlookup_eq_none.mpr hp
        have hself := @history_cons _ Event.about n
          (rest.map (fun p => .called p.1 p.2 (.error e))) (.called n fn (.error e) : Event F E C) rfl
        rw [List.map_cons, hself, ih hrest, hnone, List.dlookup_cons_eq]
      · rw [List.dlookup_cons_ne _ _ (fun h => hn h.symm), ← ih hrest, List.map_cons, history,
          List.filter_cons_of_neg]
        · rfl
        · exact fun heq => hn (Option.some.inj (beq_iff_eq.mp heq))

/-- Answering all requests ends their lives. -/
theorem lived_flush (h : Lived r) (e : E) : Lived (r.flush e) where
  below := fun _ _ hlookup => nomatch hlookup
  lives := by
    intro id
    have hlife := h.lives id
    show Life id _ (history Event.about id (r.log ++ _))
    rw [history_append, history_answers e id _ r.entries.nodupKeys]
    cases hfn : r.entries.lookup id with
    | none =>
        have hsame : (r.flush e).status id = r.status id := status_congr rfl hfn.symm
        rw [hsame, show r.entries.entries.dlookup id = none from hfn, List.append_nil]
        exact hlife
    | some fn =>
        have hid := h.below id fn hfn
        have hended : (r.flush e).status id = .ended := status_ended hid rfl
        rw [status_waiting hid hfn] at hlife
        rw [hended, show r.entries.entries.dlookup id = some fn from hfn]
        exact .failed hlife e

/-- Setting the error ends no life. -/
theorem lived_fail (h : Lived r) (e : E) :
    Lived (r.fail e) where
  below := h.below
  lives := by
    intro id
    show Life id _ (history Event.about id (r.log ++ [.failed e]))
    rw [history_append, history_skip rfl, history_nil, List.append_nil]
    exact h.lives id

/-- Withdrawing requests ends their lives. -/
theorem lived_withdraw (h : Lived r) (ids : List Nat) :
    Lived (r.withdraw ids) := by
  induction ids generalizing r with
  | nil => exact h
  | cons id rest ih => exact ih (lived_unregister h id)

/-- The first error ends every life. -/
theorem lived_setError (h : Lived r) (e : E) (ids : List Nat) : Lived (r.setError e ids) := by
  rw [setError]
  cases r.error with
  | none => exact lived_flush (lived_withdraw (lived_fail h e) ids) e
  | some _ => exact h

/-- The order of the entries says nothing about their lives. -/
theorem lived_rehash (h : Lived r) {entries : AList (fun _ : Nat => F)}
    (hperm : entries.entries.Perm r.entries.entries) : Lived { r with entries } := by
  have hlookup : ∀ id, entries.lookup id = r.entries.lookup id :=
    fun id => AList.perm_lookup hperm
  constructor
  · exact fun id fn hfn => h.below id fn ((hlookup id).symm.trans hfn)
  · intro id
    rw [show ({ r with entries } : Registry F E C).status id = r.status id
      from status_congr rfl (hlookup id)]
    exact h.lives id

end Registry

-- ── Answers in time ──────────────────────────────────────────────────────────

/-- The last event about this number is its registration. -/
def Waits (log : List (Event F E C)) (id : Nat) (fn : F) : Prop :=
  (history Event.about id log).getLast? = some (.registered id fn)

/-- Success follows on an arrival with the same number, and comes before any failure; a failure
    is told after it happened. -/
def Timely (before : List (Event F E C)) : Event F E C → Prop
  | .called id _ (.ok connection) =>
      (∃ earlier, before = earlier ++ [.hello id connection]) ∧ ∀ e, .failed e ∉ before
  | .called _ _ (.error e) => .failed e ∈ before
  | .failed _ => ∀ e, .failed e ∉ before
  | _ => True

/-- Whoever comes after the failure is told at once. -/
def Prompt (log : List (Event F E C)) : Prop :=
  ∀ before id fn after, log = before ++ .registered id fn :: after →
    ∀ e, .failed e ∈ before → ∃ rest, after = .called id fn (.error e) :: rest

/-- What follows on a failure: some withdraw, all that wait are told, each once, and from then
    on only those who come later are told. -/
def Flushed (log : List (Event F E C)) : Prop :=
  ∀ before e after, log = before ++ .failed e :: after →
    ∃ (ids : List Nat) (answers : List (Sigma (fun _ : Nat => F))) (rest : List (Event F E C)),
      after = ids.map .unregistered ++ answers.map (fun p => .called p.1 p.2 (.error e)) ++ rest
        ∧ answers.NodupKeys
        ∧ (∀ id fn, ⟨id, fn⟩ ∈ answers ↔ Waits (before ++ ids.map .unregistered) id fn)
        ∧ ∀ id fn result, .called id fn result ∈ rest → .registered id fn ∈ rest

section Answers

variable {log es : List (Event F E C)}

/-- Events that answer each late request at once keep this so. -/
theorem prompt_append (h : Prompt log)
    (hes : ∀ before id fn after, es = before ++ .registered id fn :: after →
      ∀ e, .failed e ∈ log ++ before → ∃ rest, after = .called id fn (.error e) :: rest) :
    Prompt (log ++ es) := by
  intro before id fn after heq e he
  rcases List.append_eq_append_iff.mp heq with ⟨mid, rfl, hright⟩ | ⟨mid, hleft, hright⟩
  · exact hes mid id fn after hright e he
  · cases mid with
    | nil =>
        rw [List.append_nil] at hleft
        exact hes [] id fn after hright.symm e (by rw [List.append_nil, hleft]; exact he)
    | cons ev mid =>
        obtain ⟨rfl, rfl⟩ := List.cons.inj hright
        obtain ⟨rest, rfl⟩ := h before id fn mid hleft e he
        exact ⟨rest ++ es, rfl⟩

/-- Events among which there is no registration. -/
theorem prompt_quiet (h : Prompt log) (hes : ∀ id fn, .registered id fn ∉ es) :
    Prompt (log ++ es) := by
  refine prompt_append h (fun before id fn after heq => absurd ?_ (hes id fn))
  rw [heq]
  exact List.mem_append_right _ (List.mem_cons_self ..)

/-- As long as nothing failed there is nothing to answer. -/
theorem flushed_none (h : ∀ e, .failed e ∉ log) : Flushed log := by
  intro before e after heq
  refine absurd ?_ (h e)
  rw [heq]
  exact List.mem_append_right _ (List.mem_cons_self ..)

/-- Events after which nothing failed keep this so. -/
theorem flushed_append (h : Flushed log) (hfailed : ∀ e, .failed e ∉ es)
    (hcalled : ∀ id fn result, .called id fn result ∈ es → .registered id fn ∈ es) :
    Flushed (log ++ es) := by
  intro before e after heq
  rcases List.append_eq_append_iff.mp heq with ⟨mid, -, hright⟩ | ⟨mid, hleft, hright⟩
  · refine absurd ?_ (hfailed e)
    rw [hright]
    exact List.mem_append_right _ (List.mem_cons_self ..)
  · cases mid with
    | nil =>
        refine absurd ?_ (hfailed e)
        rw [← List.nil_append es, ← hright]
        exact List.mem_cons_self ..
    | cons ev mid =>
        obtain ⟨rfl, rfl⟩ := List.cons.inj hright
        obtain ⟨ids, answers, rest, hmid, hnodup, hanswers, hrest⟩ := h before e mid hleft
        refine ⟨ids, answers, rest ++ es, ?_, hnodup, hanswers, fun id fn result hmem => ?_⟩
        · rw [hmid]
          exact List.append_assoc ..
        · rcases List.mem_append.mp hmem with hmem | hmem
          · exact List.mem_append_left _ (hrest id fn result hmem)
          · exact List.mem_append_right _ (hcalled id fn result hmem)

/-- There is one failure only. -/
theorem failed_unique {before after rest : List (Event F E C)} {e e' : E}
    (hlog : ∀ e, .failed e ∉ log) (hrest : ∀ e, .failed e ∉ rest)
    (heq : log ++ .failed e :: rest = before ++ .failed e' :: after) :
    log = before ∧ e = e' ∧ rest = after := by
  rcases List.append_eq_append_iff.mp heq with ⟨mid, hbefore, hright⟩ | ⟨mid, hleft, hright⟩
  · cases mid with
    | nil =>
        obtain ⟨hev, hafter⟩ := List.cons.inj hright
        exact ⟨(hbefore.trans (List.append_nil _)).symm, Event.failed.inj hev, hafter⟩
    | cons ev mid =>
        refine absurd ?_ (hrest e')
        rw [(List.cons.inj hright).2]
        exact List.mem_append_right _ (List.mem_cons_self ..)
  · cases mid with
    | nil =>
        obtain ⟨hev, hafter⟩ := List.cons.inj hright
        exact ⟨hleft.trans (List.append_nil _), (Event.failed.inj hev).symm, hafter.symm⟩
    | cons ev mid =>
        refine absurd ?_ (hlog e')
        rw [hleft, (List.cons.inj hright).1]
        exact List.mem_append_right _ (List.mem_cons_self ..)

/-- Everybody who was waiting is told. -/
theorem timely_answers (h : Always Timely log) {e : E} (he : .failed e ∈ log)
    (answers : List (Sigma (fun _ : Nat => F))) :
    Always Timely (log ++ answers.map (fun p => .called p.1 p.2 (.error e))) := by
  induction answers generalizing log with
  | nil =>
      rw [List.map_nil, List.append_nil]
      exact h
  | cons p rest ih =>
      rw [List.map_cons, List.append_cons]
      exact ih (always_snoc.mpr ⟨h, he⟩) (List.mem_append_left _ he)

/-- A registration waits exactly when its life says so. -/
theorem Life.waiting_iff {id : Nat} {status : Status F} {l : List (Event F E C)}
    (h : Life id status l) (fn : F) :
    status = .waiting fn ↔ l.getLast? = some (.registered id fn) := by
  cases h with
  | nil => exact ⟨nofun, nofun⟩
  | strayUnknown h hev =>
      rw [List.getLast?_concat]
      refine ⟨nofun, fun heq => ?_⟩
      rw [Option.some.inj heq] at hev
      cases hev
  | registered h fn' =>
      rw [List.getLast?_concat]
      refine ⟨fun heq => ?_, fun heq => ?_⟩
      · rw [Status.waiting.inj heq]
      · rw [(Event.registered.inj (Option.some.inj heq)).2]
  | unregistered h =>
      rw [List.getLast?_concat]
      exact ⟨nofun, nofun⟩
  | served h connection =>
      rw [List.append_cons, List.getLast?_concat]
      exact ⟨nofun, nofun⟩
  | failed h e =>
      rw [List.getLast?_concat]
      exact ⟨nofun, nofun⟩
  | strayEnded h hev =>
      rw [List.getLast?_concat]
      refine ⟨nofun, fun heq => ?_⟩
      rw [Option.some.inj heq] at hev
      cases hev

end Answers

namespace Registry

variable {r : Registry F E C}

/-- The requests among the entries are those that wait. -/
theorem Lived.waits_iff (h : Lived r) (id : Nat) (fn : F) :
    ⟨id, fn⟩ ∈ r.entries.entries ↔ Waits r.log id fn := by
  rw [Waits, ← (h.lives id).waiting_iff fn]
  have hlookup : ⟨id, fn⟩ ∈ r.entries.entries ↔ r.entries.lookup id = some fn :=
    (List.mem_dlookup_iff r.entries.nodupKeys).symm
  rw [hlookup]
  constructor
  · exact fun hfn => status_waiting (h.below id fn hfn) hfn
  · intro hstatus
    cases hfn : r.entries.lookup id with
    | none => exact absurd hstatus (status_ne_waiting hfn fn)
    | some fn' =>
        rw [status_waiting (h.below id fn' hfn) hfn] at hstatus
        exact congrArg some (Status.waiting.inj hstatus)

/-- What holds between two steps. -/
structure Answering (r : Registry F E C) : Prop where
  lived : Lived r
  failed : ∀ e, .failed e ∈ r.log ↔ r.error = some e
  cleared : ∀ e, r.error = some e → r.entries = ∅
  timely : Always Timely r.log
  prompt : Prompt r.log
  flushed : Flushed r.log

/-- Without an error nothing has failed. -/
theorem Answering.no_failure (h : Answering r) (herror : r.error = none) : ∀ e, .failed e ∉ r.log := by
  intro e he
  have := (h.failed e).mp he
  rw [herror] at this
  cases this

/-- The empty registry. -/
theorem answering_init : Answering ({} : Registry F E C) where
  lived := lived_init
  failed := fun _ => ⟨nofun, nofun⟩
  cleared := nofun
  timely := always_nil
  prompt := by
    intro before id fn after heq
    cases before <;> cases heq
  flushed := flushed_none (fun _ => nofun)

/-- Events that are no failure. -/
theorem Answering.failed_append (h : Answering r) {es : List (Event F E C)}
    (hes : ∀ e, .failed e ∉ es) (e : E) : .failed e ∈ r.log ++ es ↔ r.error = some e := by
  rw [List.mem_append, h.failed e]
  exact or_iff_left (hes e)

/-- Requests are answered when the registry is in error. -/
theorem answering_register (h : Answering r) (fn : F) : Answering (r.register fn) := by
  have hlived := lived_register h.lived fn
  cases herror : r.error with
  | none =>
      have hno := h.no_failure herror
      have hes : ∀ e, (.failed e : Event F E C) ∉ [.registered r.nextId fn] := by
        intro e he
        cases List.mem_singleton.mp he
      rw [register_ok fn herror] at hlived ⊢
      constructor
      case lived => exact hlived
      case failed => exact h.failed_append hes
      case cleared =>
        intro e he
        rw [show r.error = some e from he] at herror
        cases herror
      case timely => exact always_snoc.mpr ⟨h.timely, trivial⟩
      case prompt =>
        refine prompt_append h.prompt (fun before id fn' after heq e he => absurd he ?_)
        cases before with
        | nil =>
            rw [List.append_nil]
            exact hno e
        | cons ev before =>
            have := (List.cons.inj heq).2
            exact absurd this.symm (List.append_ne_nil_of_right_ne_nil _ (List.cons_ne_nil _ _))
      case flushed =>
        refine flushed_none (fun e he => ?_)
        have := (h.failed_append hes e).mp he
        rw [herror] at this
        cases this
  | some e =>
      have hes : ∀ e', (.failed e' : Event F E C)
          ∉ [.registered r.nextId fn, .called r.nextId fn (.error e)] := by
        intro e' he'
        simp only [List.mem_cons, reduceCtorEq, List.not_mem_nil, or_self] at he'
      rw [register_error fn herror] at hlived ⊢
      constructor
      case lived => exact hlived
      case failed => exact h.failed_append hes
      case cleared => exact fun e' _ => h.cleared e herror
      case timely =>
        show Always Timely (r.log ++ [_, _])
        rw [List.append_cons]
        refine always_snoc.mpr ⟨always_snoc.mpr ⟨h.timely, trivial⟩, ?_⟩
        exact List.mem_append_left _ ((h.failed e).mpr herror)
      case prompt =>
        refine prompt_append h.prompt (fun before id fn' after heq e' he' => ?_)
        rcases before with _ | ⟨ev, _ | ⟨ev', before⟩⟩
        · obtain ⟨hev, rfl⟩ := List.cons.inj heq
          obtain ⟨rfl, rfl⟩ := Event.registered.inj hev
          rw [List.append_nil, h.failed e', herror] at he'
          exact ⟨[], by rw [Option.some.inj he']⟩
        · cases (List.cons.inj (List.cons.inj heq).2).1
        · have := (List.cons.inj (List.cons.inj heq).2).2
          exact absurd this.symm (List.append_ne_nil_of_right_ne_nil _ (List.cons_ne_nil _ _))
      case flushed =>
        refine flushed_append h.flushed hes (fun id fn' result hmem => ?_)
        simp only [List.mem_cons, reduceCtorEq, Event.called.injEq, List.not_mem_nil, or_false,
          false_or] at hmem
        rw [hmem.1, hmem.2.1]
        exact List.mem_cons_self ..

/-- Events that nobody has to answer for. -/
theorem answering_stray (h : Answering r) {r' : Registry F E C} (ev : Event F E C)
    (hev : ev.Stray) (hlived : Lived r') (herror : r'.error = r.error)
    (hlog : r'.log = r.log ++ [ev]) (hcleared : ∀ e, r.error = some e → r'.entries = ∅) :
    Answering r' := by
  have hfailed : ∀ e, (.failed e : Event F E C) ∉ [ev] := by
    intro e he
    rw [← List.mem_singleton.mp he] at hev
    cases hev
  constructor
  case lived => exact hlived
  case failed =>
    rw [hlog, herror]
    exact h.failed_append hfailed
  case cleared =>
    rw [herror]
    exact hcleared
  case timely =>
    rw [hlog]
    refine always_snoc.mpr ⟨h.timely, ?_⟩
    cases ev with
    | unregistered id => trivial
    | hello id connection => trivial
    | registered id fn => trivial
    | called id fn result => cases hev
    | failed e => cases hev
  case prompt =>
    rw [hlog]
    refine prompt_quiet h.prompt (fun id fn hmem => ?_)
    rw [← List.mem_singleton.mp hmem] at hev
    cases hev
  case flushed =>
    rw [hlog]
    refine flushed_append h.flushed hfailed (fun id fn result hmem => ?_)
    rw [← List.mem_singleton.mp hmem] at hev
    cases hev

/-- Withdrawing a request leaves the others to be answered. -/
theorem answering_unregister (h : Answering r) (id : Nat) : Answering (r.unregister id) := by
  refine answering_stray h (.unregistered id) trivial (lived_unregister h.lived id) rfl rfl
    (fun e he => ?_)
  show r.entries.erase id = ∅
  rw [h.cleared e he]
  rfl

/-- Answering a request leaves the others to be answered. -/
theorem answering_deliver (h : Answering r) (id : Nat) (connection : C) (herror : r.error = none) :
    Answering (r.deliver id connection) := by
  have hlived := lived_deliver h.lived id connection
  cases hfn : r.entries.lookup id with
  | none =>
      rw [deliver_none connection hfn] at hlived ⊢
      exact answering_stray h (.hello id connection) trivial hlived rfl rfl h.cleared
  | some fn =>
      have hno := h.no_failure herror
      have hes : ∀ e, (.failed e : Event F E C)
          ∉ [.hello id connection, .called id fn (.ok connection)] := by
        intro e he
        simp only [List.mem_cons, reduceCtorEq, List.not_mem_nil, or_self] at he
      rw [deliver_some connection hfn] at hlived ⊢
      constructor
      case lived => exact hlived
      case failed => exact h.failed_append hes
      case cleared =>
        intro e he
        rw [show r.error = some e from he] at herror
        cases herror
      case timely =>
        show Always Timely (r.log ++ [_, _])
        rw [List.append_cons]
        refine always_snoc.mpr ⟨always_snoc.mpr ⟨h.timely, trivial⟩, ⟨r.log, rfl⟩, fun e he => ?_⟩
        rcases List.mem_append.mp he with he | he
        · exact hno e he
        · cases List.mem_singleton.mp he
      case prompt =>
        refine prompt_quiet h.prompt (fun id' fn' hmem => ?_)
        simp only [List.mem_cons, reduceCtorEq, List.not_mem_nil, or_self] at hmem
      case flushed =>
        refine flushed_none (fun e he => ?_)
        have := (h.failed_append hes e).mp he
        rw [herror] at this
        cases this

/-- What withdrawing requests logs. -/
theorem withdraw_eq (ids : List Nat) (r : Registry F E C) :
    (r.withdraw ids).log = r.log ++ ids.map .unregistered ∧ (r.withdraw ids).error = r.error := by
  induction ids generalizing r with
  | nil => exact ⟨(List.append_nil _).symm, rfl⟩
  | cons id rest ih =>
      obtain ⟨hlog, herror⟩ := ih (r.unregister id)
      refine ⟨hlog.trans ?_, herror⟩
      show r.log ++ [.unregistered id] ++ _ = _
      rw [List.append_assoc]
      rfl

/-- The log after a failure. -/
theorem setError_log (h : Answering r) (e : E) (ids : List Nat) (herror : r.error = none) :
    ∃ answers : List (Sigma (fun _ : Nat => F)), answers.NodupKeys
      ∧ (∀ id fn, ⟨id, fn⟩ ∈ answers ↔ Waits (r.log ++ ids.map .unregistered) id fn)
      ∧ (r.setError e ids).log = r.log ++ .failed e :: (ids.map .unregistered
        ++ answers.map (fun p => .called p.1 p.2 (.error e)))
      ∧ (r.setError e ids).error = some e ∧ (r.setError e ids).entries = ∅ := by
  have hlived := lived_withdraw (lived_fail h.lived e) ids
  obtain ⟨hlog, herror'⟩ := withdraw_eq ids (r.fail e)
  rw [setError, herror]
  refine ⟨((r.fail e).withdraw ids).entries.entries, AList.nodupKeys _, fun id fn => ?_, ?_,
    herror', rfl⟩
  · rw [hlived.waits_iff id fn, hlog, Waits, Waits]
    show (history Event.about id (r.log ++ [.failed e] ++ _)).getLast? = _ ↔ _
    have hskip := @history_skip _ Event.about id [] (.failed e : Event F E C) rfl
    rw [history_append, history_append, hskip, history_nil, List.append_nil, ← history_append]
  · show ((r.fail e).withdraw ids).log ++ _ = _
    rw [hlog]
    show r.log ++ [.failed e] ++ _ ++ _ = _
    rw [List.append_assoc, List.append_assoc]
    rfl

/-- The first error answers every request that waits. -/
theorem answering_setError (h : Answering r) (e : E) (ids : List Nat) :
    Answering (r.setError e ids) := by
  cases herror : r.error with
  | some e' =>
      rw [setError, herror]
      exact h
  | none =>
      obtain ⟨answers, hnodup, hanswers, hlog, herror', hentries⟩ := setError_log h e ids herror
      have hno := h.no_failure herror
      have hrest : ∀ e', (.failed e' : Event F E C) ∉ ids.map .unregistered
          ++ answers.map (fun p => .called p.1 p.2 (.error e)) := by
        intro e' he'
        rcases List.mem_append.mp he' with he' | he'
        · obtain ⟨id, -, hid⟩ := List.mem_map.mp he'
          cases hid
        · obtain ⟨p, -, hp⟩ := List.mem_map.mp he'
          cases hp
      constructor
      case lived => exact lived_setError h.lived e ids
      case failed =>
        intro e'
        rw [hlog, herror', List.mem_append, List.mem_cons]
        constructor
        · rintro (he' | he' | he')
          · exact absurd he' (hno e')
          · rw [Event.failed.inj he']
          · exact absurd he' (hrest e')
        · intro he'
          rw [Option.some.inj he']
          exact .inr (.inl rfl)
      case cleared => exact fun _ _ => hentries
      case timely =>
        rw [hlog, List.append_cons, ← List.append_assoc]
        have hfail : Always Timely (r.log ++ [.failed e]) := always_snoc.mpr ⟨h.timely, hno⟩
        refine timely_answers (always_append hfail ?_) ?_ answers
        · intro ev hev before
          obtain ⟨id, -, rfl⟩ := List.mem_map.mp hev
          trivial
        · exact List.mem_append_left _ (List.mem_append_right _ (List.mem_singleton_self _))
      case prompt =>
        rw [hlog]
        refine prompt_quiet h.prompt (fun id fn hmem => ?_)
        rcases List.mem_cons.mp hmem with hmem | hmem
        · cases hmem
        · rcases List.mem_append.mp hmem with hmem | hmem
          · obtain ⟨id, -, hid⟩ := List.mem_map.mp hmem
            cases hid
          · obtain ⟨p, -, hp⟩ := List.mem_map.mp hmem
            cases hp
      case flushed =>
        intro before e' after heq
        rw [hlog] at heq
        obtain ⟨rfl, rfl, rfl⟩ := failed_unique hno hrest heq
        exact ⟨ids, answers, [], (List.append_nil _).symm, hnodup, hanswers, nofun⟩

/-- The order of the entries does not bear on the answers. -/
theorem answering_rehash (h : Answering r) {entries : AList (fun _ : Nat => F)}
    (hperm : entries.entries.Perm r.entries.entries) : Answering { r with entries } where
  lived := lived_rehash h.lived hperm
  failed := h.failed
  cleared := by
    intro e he
    rw [h.cleared e he] at hperm
    exact AList.ext (List.perm_nil.mp hperm)
  timely := h.timely
  prompt := h.prompt
  flushed := h.flushed

/-- What a step preserves. -/
theorem answering_step {r' : Registry F E C} (h : Answering r) (hstep : Step r r') :
    Answering r' := by
  cases hstep with
  | register fn => exact answering_register h fn
  | unregister id => exact answering_unregister h id
  | deliver id connection herror => exact answering_deliver h id connection herror
  | setError e ids => exact answering_setError h e ids
  | rehash entries hperm => exact answering_rehash h hperm

/-- What a run preserves. -/
theorem answering_of_reachable (h : Reachable r) : Answering r := by
  induction h with
  | refl => exact answering_init
  | tail _ hstep ih => exact answering_step ih hstep

end Registry

/-- The law that a log keeps. -/
structure Lawful (log : List (Event F E C)) : Prop where
  lives : ∀ id, ∃ status : Status F, Life id status (history Event.about id log)
  once : ∀ id, (calls (history Event.about id log)).length ≤ 1
  timely : Always Timely log
  prompt : Prompt log
  flushed : Flushed log

/-- Every registry that can be reached has answered as it should. -/
theorem Registry.lawful {r : Registry F E C} (h : Registry.Reachable r) : Lawful r.log where
  lives := fun id => ⟨_, (answering_of_reachable h).lived.lives id⟩
  once := fun id => ((answering_of_reachable h).lived.lives id).calls_le.1
  timely := (answering_of_reachable h).timely
  prompt := (answering_of_reachable h).prompt
  flushed := (answering_of_reachable h).flushed

end TpRegistration
