import Mathlib.Data.List.AList
import Mathlib.Data.List.Induction
import Mathlib.Tactic.Common
import Tensorpipe.HistoryProofs

/-! # The epoll loop — records, handlers, stale events

    One thread fetches events from the kernel and another one dispatches them later, in
    batches.  In between, and between two events of a batch, descriptors may be registered
    again, unregistered, closed and reused.  Each registration gets a RECORD of its own, the
    kernel returns with an event the record of the last registration of its entry, and
    handlers are looked up by record.

    The kernel is part of the state: the table of open descriptors, and the entries of the
    epoll instance.  An entry belongs to a descriptor and the file that it stood for, and goes
    away when the last descriptor of the file is closed. -/

namespace TpEpoll

open TpStateMachine

-- ── What happens ─────────────────────────────────────────────────────────────

/-- What happens to the records, in order. -/
inductive Event where
  | registered (record fd handler : Nat)
  | unregistered (fd : Nat)
  | fetched (fd record events : Nat)
  | dispatched (record handler events : Nat)
  | dropped (record events : Nat)
deriving DecidableEq, Repr

/-- The record that an event gives out. -/
def Event.record? : Event → Option Nat
  | registered record _ _ => some record
  | _ => none

/-- The registration of each descriptor: the record and the handler of the last one, unless
    it was taken back. -/
def Event.apply (regs : Nat → Option (Nat × Nat)) : Event → Nat → Option (Nat × Nat)
  | registered record fd handler => fun fd' => if fd' = fd then some (record, handler) else regs fd'
  | unregistered fd => fun fd' => if fd' = fd then none else regs fd'
  | _ => regs

/-- The record and handler that each descriptor has after a log. -/
def inForce (log : List Event) : Nat → Option (Nat × Nat) :=
  log.foldl Event.apply (fun _ => none)

/-- The last event applies to what was in force. -/
theorem inForce_snoc (log : List Event) (e : Event) :
    inForce (log ++ [e]) = e.apply (inForce log) := by
  rw [inForce, List.foldl_append]
  rfl

/-- The records of all registrations, in order. -/
def records (log : List Event) : List Nat := log.filterMap Event.record?

-- ── The kernel ───────────────────────────────────────────────────────────────

/-- An entry of the interest list: the file under its descriptor, and the data. -/
structure Entry where
  fd : Nat
  file : Nat
  record : Nat
  events : Nat
deriving DecidableEq, Repr

/-- `files` has the open descriptors and the files that they stand for. -/
structure Kernel where
  files : List (Nat × Nat) := []
  entries : List Entry := []
deriving DecidableEq, Repr

namespace Kernel

/-- The file that a descriptor stands for. -/
def fileOf (k : Kernel) (fd : Nat) : Option Nat := (k.files.find? (fun f => f.1 == fd)).map Prod.snd

/-- Whether the interest list has an entry. -/
def has (k : Kernel) (fd file : Nat) : Bool :=
  k.entries.any (fun e => e.fd == fd && e.file == file)

/-- `epoll_ctl` with `EPOLL_CTL_ADD`; `none` is an error. -/
def add (fd events record : Nat) (k : Kernel) : Option Kernel :=
  match k.fileOf fd with
  | none => none
  | some file =>
      if k.has fd file then none
      else some { k with entries := k.entries ++ [{ fd, file, record, events }] }

/-- `EPOLL_CTL_MOD`. -/
def modify (fd events record : Nat) (k : Kernel) : Option Kernel :=
  match k.fileOf fd with
  | none => none
  | some file =>
      if k.has fd file then
        some { k with
          entries := k.entries.map (fun e =>
            if e.fd == fd && e.file == file then { e with record, events } else e) }
      else none

/-- `EPOLL_CTL_DEL`. -/
def delete (fd : Nat) (k : Kernel) : Option Kernel :=
  match k.fileOf fd with
  | none => none
  | some file =>
      if k.has fd file then
        some { k with entries := k.entries.filter (fun e => !(e.fd == fd && e.file == file)) }
      else none

/-- Another part of the program opens a file. -/
def openFd (fd file : Nat) (k : Kernel) : Kernel := { k with files := (fd, file) :: k.files }

/-- The entries of a file stay as long as some descriptor stands for it. -/
def closeFd (fd : Nat) (k : Kernel) : Kernel :=
  let files := k.files.filter (fun f => !(f.1 == fd))
  { files, entries := k.entries.filter (fun e => files.any (fun f => f.2 == e.file)) }

end Kernel

-- ── The loop ─────────────────────────────────────────────────────────────────

/-- The most events that one call of `epoll_wait` returns. -/
def kCapacity : Nat := 64

/-- `batch` has the events that were fetched and not processed yet. -/
structure EpollLoop where
  eventFd : Nat
  fdToRecord : AList (fun _ : Nat => Nat) := ∅
  recordToHandler : AList (fun _ : Nat => Nat) := ∅
  nextRecord : Nat := 1
  kernel : Kernel := {}
  batch : List (Nat × Nat) := []
  log : List Event := []

namespace EpollLoop

/-- Record 0 is for the eventfd. -/
def init (eventFd file : Nat) : EpollLoop :=
  { eventFd
    kernel :=
      { files := [(eventFd, file)]
        entries := [{ fd := eventFd, file, record := 0, events := 1 }] } }

/-- What is left of a call to `epoll_ctl` that throws. -/
def ctl (x : EpollLoop) (result : Option Kernel) : EpollLoop :=
  { x with kernel := result.getD x.kernel }

/-- Gives the descriptor a new record and puts it on the interest list. -/
def registerDescriptor (fd events h : Nat) (x : EpollLoop) : EpollLoop :=
  let record := x.nextRecord
  let y := { x with nextRecord := record + 1, log := x.log ++ [Event.registered record fd h] }
  match x.fdToRecord.lookup fd with
  | none =>
      { y with
        fdToRecord := emplace fd record x.fdToRecord
        recordToHandler := emplace record h x.recordToHandler }.ctl
          (x.kernel.add fd events record)
  | some oldRecord =>
      { y with
        fdToRecord := x.fdToRecord.insert fd record
        recordToHandler := emplace record h (x.recordToHandler.erase oldRecord) }.ctl
          (x.kernel.modify fd events record)

/-- The descriptor must be registered. -/
def unregisterDescriptor (fd : Nat) (x : EpollLoop) : EpollLoop :=
  match x.fdToRecord.lookup fd with
  | none => x
  | some oldRecord =>
      { x with
        fdToRecord := x.fdToRecord.erase fd
        recordToHandler := x.recordToHandler.erase oldRecord
        log := x.log ++ [Event.unregistered fd] }.ctl (x.kernel.delete fd)

/-- `epoll_wait` returns some of the entries, with the events that occurred. -/
def fetch (ready : List (Entry × Nat)) (x : EpollLoop) : EpollLoop :=
  { x with
    batch := ready.map (fun r => (r.1.record, r.2))
    log := x.log ++ ready.map (fun r => .fetched r.1.fd r.1.record r.2) }

/-- One round of the loop of `handleEpollEventsFromLoop`, up to the call of the handler. -/
def handleEvent (x : EpollLoop) : EpollLoop :=
  match x.batch with
  | [] => x
  | (record, events) :: rest =>
      match x.recordToHandler.lookup record with
      | none => { x with batch := rest, log := x.log ++ [.dropped record events] }
      | some handler =>
          { x with batch := rest, log := x.log ++ [.dispatched record handler events] }

/-- What handlers and others do comes as steps of its own. -/
inductive Step where
  | registerDescriptor (fd events h : Nat)
  | unregisterDescriptor (fd : Nat)
  | openFd (fd file : Nat)
  | closeFd (fd : Nat)
  | fetch (ready : List (Entry × Nat))
  | handleEvent
deriving DecidableEq, Repr

/-- The eventfd belongs to the loop, so it is nobody else's to register or close.  The thread
    fetches again once the batch was processed. -/
def enabled (x : EpollLoop) : Step → Prop
  | .registerDescriptor fd _ _ => fd ≠ x.eventFd
  | .closeFd fd => fd ≠ x.eventFd
  | .unregisterDescriptor fd => fd ∈ x.fdToRecord
  | .openFd fd _ => x.kernel.fileOf fd = none
  | .fetch ready => x.batch = [] ∧ ready.length ≤ kCapacity ∧ ∀ r ∈ ready, r.1 ∈ x.kernel.entries
  | _ => True

/-- One step of the loop, of the kernel or of the program around. -/
def step (x : EpollLoop) : Step → EpollLoop
  | .registerDescriptor fd events h => x.registerDescriptor fd events h
  | .unregisterDescriptor fd => x.unregisterDescriptor fd
  | .openFd fd file => { x with kernel := x.kernel.openFd fd file }
  | .closeFd fd => { x with kernel := x.kernel.closeFd fd }
  | .fetch ready => x.fetch ready
  | .handleEvent => x.handleEvent

/-- The loops that can be reached from a new one. -/
inductive Reachable (eventFd file : Nat) : EpollLoop → Prop where
  | init : Reachable eventFd file (init eventFd file)
  | step {x : EpollLoop} (h : Reachable eventFd file x) (s : Step) (henabled : x.enabled s) :
      Reachable eventFd file (x.step s)

-- ── Registrations ────────────────────────────────────────────────────────────

/-- What is in force was registered. -/
theorem inForce_known {log : List Event} {fd record handler : Nat}
    (h : inForce log fd = some (record, handler)) : .registered record fd handler ∈ log := by
  induction log using List.reverseRecOn with
  | nil => exact nomatch h
  | append_singleton log e ih =>
      rw [inForce_snoc] at h
      cases e with
      | registered record' fd' handler' =>
          change (if fd = fd' then some (record', handler') else inForce log fd) = _ at h
          by_cases hfd : fd = fd'
          · rw [if_pos hfd] at h
            obtain ⟨rfl, rfl⟩ := Prod.mk.inj (Option.some.inj h)
            rw [hfd]
            exact List.mem_append_right _ (List.mem_singleton_self _)
          · rw [if_neg hfd] at h
            exact List.mem_append_left _ (ih h)
      | unregistered fd' =>
          change (if fd = fd' then none else inForce log fd) = _ at h
          by_cases hfd : fd = fd'
          · rw [if_pos hfd] at h
            exact nomatch h
          · rw [if_neg hfd] at h
            exact List.mem_append_left _ (ih h)
      | _ => exact List.mem_append_left _ (ih h)

/-- The two maps are what the registrations ask for. -/
structure MapInv (x : EpollLoop) : Prop where
  fds : ∀ fd, x.fdToRecord.lookup fd = (inForce x.log fd).map Prod.fst
  handlers : ∀ record h, x.recordToHandler.lookup record = some h
    ↔ ∃ fd, inForce x.log fd = some (record, h)
  positive : 0 < x.nextRecord
  numbered : records x.log = List.range' 1 (x.nextRecord - 1)
  below : ∀ record fd h, .registered record fd h ∈ x.log → 0 < record ∧ record < x.nextRecord
  unique : ∀ record fd h fd' h', .registered record fd h ∈ x.log →
    .registered record fd' h' ∈ x.log → fd = fd' ∧ h = h'

section Maps

variable {x : EpollLoop}

/-- A record is in force for one descriptor. -/
theorem MapInv.inForce_unique (h : MapInv x) {fd fd' record handler handler' : Nat}
    (hfd : inForce x.log fd = some (record, handler))
    (hfd' : inForce x.log fd' = some (record, handler')) : fd = fd' :=
  (h.unique _ _ _ _ _ (inForce_known hfd) (inForce_known hfd')).1

/-- The next record is not in use. -/
theorem MapInv.fresh (h : MapInv x) : x.recordToHandler.lookup x.nextRecord = none := by
  cases hlookup : x.recordToHandler.lookup x.nextRecord with
  | none => rfl
  | some handler =>
      obtain ⟨fd, hfd⟩ := (h.handlers _ _).mp hlookup
      exact absurd (h.below _ _ _ (inForce_known hfd)).2 (Nat.lt_irrefl _)

/-- The handlers of a map from which the record of `fd` was erased. -/
theorem MapInv.erased (h : MapInv x) {fd oldRecord : Nat}
    (hlookup : x.fdToRecord.lookup fd = some oldRecord) (record handler : Nat) :
    (x.recordToHandler.erase oldRecord).lookup record = some handler
      ↔ ∃ fd', fd' ≠ fd ∧ inForce x.log fd' = some (record, handler) := by
  rw [h.fds] at hlookup
  obtain ⟨⟨old, oldHandler⟩, hold, rfl⟩ := Option.map_eq_some_iff.mp hlookup
  by_cases hrecord : record = old
  · subst hrecord
    rw [AList.lookup_erase]
    refine ⟨nofun, ?_⟩
    rintro ⟨fd', hne, hfd'⟩
    exact absurd (h.inForce_unique hfd' hold) hne
  · rw [AList.lookup_erase_ne hrecord, h.handlers]
    constructor
    · rintro ⟨fd', hfd'⟩
      refine ⟨fd', ?_, hfd'⟩
      rintro rfl
      exact hrecord (Prod.mk.inj (Option.some.inj (hfd'.symm.trans hold))).1
    · rintro ⟨fd', -, hfd'⟩
      exact ⟨fd', hfd'⟩

/-- A registration gives out one record more. -/
theorem records_registered {log : List Event} {record fd handler : Nat} :
    records (log ++ [.registered record fd handler]) = records log ++ [record] :=
  List.filterMap_append ..

/-- The other events give out none. -/
theorem records_other {log : List Event} {e : Event} (he : e.record? = none) :
    records (log ++ [e]) = records log := by
  rw [records, List.filterMap_append, List.filterMap_cons_none he]
  exact List.append_nil _

/-- A registration with the next record. -/
theorem mapInv_registered {y : EpollLoop} {fd handler : Nat} (h : MapInv x)
    (hlog : y.log = x.log ++ [.registered x.nextRecord fd handler])
    (hnext : y.nextRecord = x.nextRecord + 1)
    (hfds : ∀ fd', y.fdToRecord.lookup fd'
      = if fd' = fd then some x.nextRecord else x.fdToRecord.lookup fd')
    (hhandlers : ∀ record h', y.recordToHandler.lookup record = some h'
      ↔ (record = x.nextRecord ∧ h' = handler)
        ∨ ∃ fd', fd' ≠ fd ∧ inForce x.log fd' = some (record, h')) : MapInv y := by
  have hforce : ∀ fd', inForce y.log fd'
      = if fd' = fd then some (x.nextRecord, handler) else inForce x.log fd' := by
    intro fd'
    rw [hlog, inForce_snoc]
    rfl
  have hmem : ∀ {record fd' h'}, .registered record fd' h' ∈ y.log →
      .registered record fd' h' ∈ x.log
        ∨ (record = x.nextRecord ∧ fd' = fd ∧ h' = handler) := by
    intro record fd' h' hin
    rw [hlog] at hin
    rcases List.mem_append.mp hin with hold | hnew
    · exact Or.inl hold
    · exact Or.inr (Event.registered.inj (List.mem_singleton.mp hnew))
  refine ⟨?_, ?_, ?_, ?_, ?_, ?_⟩
  · intro fd'
    rw [hfds, hforce]
    by_cases hfd : fd' = fd
    · rw [if_pos hfd, if_pos hfd]
      rfl
    · rw [if_neg hfd, if_neg hfd]
      exact h.fds fd'
  · intro record h'
    rw [hhandlers]
    constructor
    · rintro (⟨rfl, rfl⟩ | ⟨fd', hne, hfd'⟩)
      · exact ⟨fd, (hforce fd).trans (if_pos rfl)⟩
      · exact ⟨fd', (hforce fd').trans ((if_neg hne).trans hfd')⟩
    · rintro ⟨fd', hfd'⟩
      rw [hforce] at hfd'
      by_cases hfd : fd' = fd
      · rw [if_pos hfd] at hfd'
        obtain ⟨rfl, rfl⟩ := Prod.mk.inj (Option.some.inj hfd')
        exact Or.inl ⟨rfl, rfl⟩
      · rw [if_neg hfd] at hfd'
        exact Or.inr ⟨fd', hfd, hfd'⟩
  · rw [hnext]
    exact Nat.succ_pos _
  · have hpos := h.positive
    rw [hlog, records_registered, h.numbered, hnext]
    rw [show x.nextRecord + 1 - 1 = x.nextRecord - 1 + 1 by omega, List.range'_1_concat]
    rw [show 1 + (x.nextRecord - 1) = x.nextRecord by omega]
  · intro record fd' h' hin
    rw [hnext]
    rcases hmem hin with hold | ⟨rfl, -, -⟩
    · have := h.below _ _ _ hold
      omega
    · exact ⟨h.positive, Nat.lt_succ_self _⟩
  · intro record fd₁ h₁ fd₂ h₂ hin₁ hin₂
    rcases hmem hin₁ with hold₁ | ⟨rfl, rfl, rfl⟩
    · rcases hmem hin₂ with hold₂ | ⟨rfl, rfl, rfl⟩
      · exact h.unique _ _ _ _ _ hold₁ hold₂
      · exact absurd (h.below _ _ _ hold₁).2 (Nat.lt_irrefl _)
    · rcases hmem hin₂ with hold₂ | ⟨-, rfl, rfl⟩
      · exact absurd (h.below _ _ _ hold₂).2 (Nat.lt_irrefl _)
      · exact ⟨rfl, rfl⟩

/-- A registration keeps the maps in order. -/
theorem mapInv_registerDescriptor (h : MapInv x) (fd events handler : Nat) :
    MapInv (x.registerDescriptor fd events handler) := by
  rw [registerDescriptor]
  cases hlookup : x.fdToRecord.lookup fd with
  | none =>
      refine mapInv_registered h rfl rfl (fun fd' => lookup_emplace hlookup fd') (fun record h' => ?_)
      show (emplace x.nextRecord handler x.recordToHandler).lookup record = some h' ↔ _
      have hfree : inForce x.log fd = none := by
        rw [h.fds] at hlookup
        exact Option.map_eq_none_iff.mp hlookup
      rw [lookup_emplace h.fresh]
      by_cases hrecord : record = x.nextRecord
      · rw [if_pos hrecord]
        constructor
        · intro heq
          exact Or.inl ⟨hrecord, (Option.some.inj heq).symm⟩
        · rintro (⟨-, rfl⟩ | ⟨fd', -, hfd'⟩)
          · rfl
          · have := (h.below _ _ _ (inForce_known hfd')).2
            omega
      · rw [if_neg hrecord, h.handlers]
        constructor
        · rintro ⟨fd', hfd'⟩
          refine Or.inr ⟨fd', ?_, hfd'⟩
          rintro rfl
          exact nomatch hfree.symm.trans hfd'
        · rintro (⟨heq, -⟩ | ⟨fd', -, hfd'⟩)
          · exact absurd heq hrecord
          · exact ⟨fd', hfd'⟩
  | some oldRecord =>
      have hfresh : (x.recordToHandler.erase oldRecord).lookup x.nextRecord = none := by
        cases herase : (x.recordToHandler.erase oldRecord).lookup x.nextRecord with
        | none => rfl
        | some h' =>
            obtain ⟨fd', -, hfd'⟩ := (h.erased hlookup _ _).mp herase
            exact absurd (h.below _ _ _ (inForce_known hfd')).2 (Nat.lt_irrefl _)
      refine mapInv_registered h rfl rfl (fun fd' => ?_) (fun record h' => ?_)
      · show (x.fdToRecord.insert fd x.nextRecord).lookup fd' = _
        by_cases hfd : fd' = fd
        · subst hfd
          rw [if_pos rfl, AList.lookup_insert]
        · rw [if_neg hfd, AList.lookup_insert_ne hfd]
      · show (emplace x.nextRecord handler (x.recordToHandler.erase oldRecord)).lookup record
          = some h' ↔ _
        rw [lookup_emplace hfresh]
        by_cases hrecord : record = x.nextRecord
        · rw [if_pos hrecord]
          constructor
          · intro heq
            exact Or.inl ⟨hrecord, (Option.some.inj heq).symm⟩
          · rintro (⟨-, rfl⟩ | ⟨fd', -, hfd'⟩)
            · rfl
            · have := (h.below _ _ _ (inForce_known hfd')).2
              omega
        · rw [if_neg hrecord, h.erased hlookup]
          constructor
          · exact Or.inr
          · rintro (⟨heq, -⟩ | hfd')
            · exact absurd heq hrecord
            · exact hfd'

/-- The end of a registration keeps the maps in order. -/
theorem mapInv_unregisterDescriptor (h : MapInv x) (fd : Nat) :
    MapInv (x.unregisterDescriptor fd) := by
  rw [unregisterDescriptor]
  cases hlookup : x.fdToRecord.lookup fd with
  | none => exact h
  | some oldRecord =>
      have hforce : ∀ fd', inForce (x.log ++ [.unregistered fd]) fd'
          = if fd' = fd then none else inForce x.log fd' := by
        intro fd'
        rw [inForce_snoc]
        rfl
      have hmem : ∀ {record fd' h'}, .registered record fd' h' ∈ x.log ++ [.unregistered fd] →
          .registered record fd' h' ∈ x.log := by
        intro record fd' h' hin
        rcases List.mem_append.mp hin with hold | hnew
        · exact hold
        · exact nomatch List.mem_singleton.mp hnew
      refine ⟨fun fd' => ?_, fun record h' => ?_, h.positive, ?_, ?_, ?_⟩
      · show (x.fdToRecord.erase fd).lookup fd' = (inForce (x.log ++ _) fd').map Prod.fst
        rw [hforce]
        by_cases hfd : fd' = fd
        · subst hfd
          rw [if_pos rfl, AList.lookup_erase]
          rfl
        · rw [if_neg hfd, AList.lookup_erase_ne hfd]
          exact h.fds fd'
      · show (x.recordToHandler.erase oldRecord).lookup record = some h'
          ↔ ∃ fd', inForce (x.log ++ _) fd' = some (record, h')
        rw [h.erased hlookup]
        constructor
        · rintro ⟨fd', hne, hfd'⟩
          exact ⟨fd', (hforce fd').trans ((if_neg hne).trans hfd')⟩
        · rintro ⟨fd', hfd'⟩
          rw [hforce] at hfd'
          by_cases hfd : fd' = fd
          · rw [if_pos hfd] at hfd'
            exact nomatch hfd'
          · rw [if_neg hfd] at hfd'
            exact ⟨fd', hfd, hfd'⟩
      · exact (records_other rfl).trans h.numbered
      · exact fun record fd' h' hin => h.below _ _ _ (hmem hin)
      · exact fun record _ _ _ _ hin hin' => h.unique _ _ _ _ _ (hmem hin) (hmem hin')

end Maps

-- ── Events ───────────────────────────────────────────────────────────────────

/-- The registration that a record of the kernel stands for; record 0 is the eventfd. -/
def Known (eventFd fd record : Nat) (log : List Event) : Prop :=
  (record = 0 ∧ fd = eventFd) ∨ (fd ≠ eventFd ∧ ∃ h, .registered record fd h ∈ log)

/-- When an event was fetched, its record was known. -/
def FetchedOk (eventFd : Nat) (before : List Event) (e : Event) : Prop :=
  ∀ fd record events, e = .fetched fd record events → Known eventFd fd record before

/-- When an event was dispatched, its registration was in force. -/
def DispatchedOk (before : List Event) (e : Event) : Prop :=
  ∀ record h events, e = .dispatched record h events →
    ∃ fd, inForce before fd = some (record, h) ∧ .fetched fd record events ∈ before

/-- When an event was dropped, its registration was not in force. -/
def DroppedOk (before : List Event) (e : Event) : Prop :=
  ∀ record events, e = .dropped record events →
    (∃ fd, .fetched fd record events ∈ before) ∧ ∀ fd h, inForce before fd ≠ some (record, h)

/-- The maps are in order, and what the kernel holds was registered. -/
structure EpollInv (x : EpollLoop) : Prop where
  maps : MapInv x
  entries : ∀ e ∈ x.kernel.entries, Known x.eventFd e.fd e.record x.log
  batch : ∀ record events, (record, events) ∈ x.batch → ∃ fd, .fetched fd record events ∈ x.log
  fetched : Always (FetchedOk x.eventFd) x.log
  dispatched : Always DispatchedOk x.log
  dropped : Always DroppedOk x.log

section Events

variable {x : EpollLoop} {eventFd fd record : Nat} {log es : List Event}

/-- A known record stays known. -/
theorem known_append (h : Known eventFd fd record log) : Known eventFd fd record (log ++ es) := by
  rcases h with h | ⟨hfd, handler, hmem⟩
  · exact Or.inl h
  · exact Or.inr ⟨hfd, handler, List.mem_append_left _ hmem⟩

/-- A new loop. -/
theorem epollInv_init (eventFd file : Nat) : EpollInv (init eventFd file) where
  maps := ⟨fun _ => rfl, fun _ _ => ⟨nofun, nofun⟩, Nat.one_pos, rfl, nofun, nofun⟩
  entries := List.forall_mem_singleton.mpr (Or.inl ⟨rfl, rfl⟩)
  batch := nofun
  fetched := always_nil
  dispatched := always_nil
  dropped := always_nil

/-- A registration or its end, with what is left in the kernel. -/
theorem epollInv_update {y : EpollLoop} {e : Event} (h : EpollInv x) (hmaps : MapInv y)
    (hlog : y.log = x.log ++ [e]) (hfd : y.eventFd = x.eventFd) (hbatch : y.batch = x.batch)
    (hentries : ∀ entry ∈ y.kernel.entries, Known x.eventFd entry.fd entry.record y.log)
    (hfetched : ∀ before, FetchedOk x.eventFd before e) (hdispatched : ∀ before, DispatchedOk before e)
    (hdropped : ∀ before, DroppedOk before e) : EpollInv y := by
  refine ⟨hmaps, ?_, ?_, ?_, ?_, ?_⟩
  · rw [hfd]
    exact hentries
  · intro record events hmem
    rw [hbatch] at hmem
    obtain ⟨fd, hin⟩ := h.batch record events hmem
    rw [hlog]
    exact ⟨fd, List.mem_append_left _ hin⟩
  · rw [hlog, hfd]
    exact always_snoc.mpr ⟨h.fetched, hfetched _⟩
  · rw [hlog]
    exact always_snoc.mpr ⟨h.dispatched, hdispatched _⟩
  · rw [hlog]
    exact always_snoc.mpr ⟨h.dropped, hdropped _⟩

/-- The entries after a call to `epoll_ctl`: old ones, and those of the descriptor with the
    new record. -/
theorem mem_add {k k' : Kernel} {events : Nat} (h : k.add fd events record = some k') {e : Entry}
    (he : e ∈ k'.entries) : e ∈ k.entries ∨ (e.fd = fd ∧ e.record = record) := by
  rw [Kernel.add] at h
  split at h
  · exact nomatch h
  · split at h
    · exact nomatch h
    · rw [← Option.some.inj h] at he
      rcases List.mem_append.mp he with hold | hnew
      · exact Or.inl hold
      · rw [List.mem_singleton.mp hnew]
        exact Or.inr ⟨rfl, rfl⟩

/-- The entries after a modification. -/
theorem mem_modify {k k' : Kernel} {events : Nat} (h : k.modify fd events record = some k')
    {e : Entry} (he : e ∈ k'.entries) : e ∈ k.entries ∨ (e.fd = fd ∧ e.record = record) := by
  rw [Kernel.modify] at h
  split at h
  · exact nomatch h
  · split at h
    · rw [← Option.some.inj h] at he
      obtain ⟨e', he', rfl⟩ := List.mem_map.mp he
      split
      next hkey =>
        rw [Bool.and_eq_true] at hkey
        exact Or.inr ⟨eq_of_beq hkey.1, rfl⟩
      next => exact Or.inl he'
    · exact nomatch h

/-- The entries after a deletion. -/
theorem mem_delete {k k' : Kernel} (h : k.delete fd = some k') {e : Entry}
    (he : e ∈ k'.entries) : e ∈ k.entries := by
  rw [Kernel.delete] at h
  split at h
  · exact nomatch h
  · split at h
    · rw [← Option.some.inj h] at he
      exact List.mem_of_mem_filter he
    · exact nomatch h

/-- A registration keeps the invariant. -/
theorem epollInv_registerDescriptor (h : EpollInv x) {fd : Nat} (events handler : Nat)
    (hfd : fd ≠ x.eventFd) : EpollInv (x.registerDescriptor fd events handler) := by
  have hmaps := mapInv_registerDescriptor h.maps fd events handler
  have hknown : ∀ {result : Option Kernel},
      (∀ k', result = some k' → ∀ e ∈ k'.entries, e ∈ x.kernel.entries
        ∨ (e.fd = fd ∧ e.record = x.nextRecord)) →
      ∀ e ∈ (result.getD x.kernel).entries,
        Known x.eventFd e.fd e.record (x.log ++ [.registered x.nextRecord fd handler]) := by
    intro result hresult e he
    have hcase : e ∈ x.kernel.entries ∨ (e.fd = fd ∧ e.record = x.nextRecord) := by
      cases result with
      | none => exact Or.inl he
      | some k' => exact hresult k' rfl e he
    rcases hcase with hold | ⟨hfd', hrecord⟩
    · exact known_append (h.entries e hold)
    · rw [hfd', hrecord]
      exact Or.inr ⟨hfd, handler, List.mem_append_right _ (List.mem_singleton_self _)⟩
  rw [registerDescriptor] at hmaps ⊢
  cases hlookup : x.fdToRecord.lookup fd with
  | none =>
      rw [hlookup] at hmaps
      exact epollInv_update h hmaps rfl rfl rfl
        (hknown (fun k' hk' e he => mem_add hk' he)) (fun _ => nofun) (fun _ => nofun) (fun _ => nofun)
  | some oldRecord =>
      rw [hlookup] at hmaps
      exact epollInv_update h hmaps rfl rfl rfl
        (hknown (fun k' hk' e he => mem_modify hk' he)) (fun _ => nofun) (fun _ => nofun)
        (fun _ => nofun)

/-- The end of a registration keeps the invariant. -/
theorem epollInv_unregisterDescriptor (h : EpollInv x) (fd : Nat) :
    EpollInv (x.unregisterDescriptor fd) := by
  have hmaps := mapInv_unregisterDescriptor h.maps fd
  rw [unregisterDescriptor] at hmaps ⊢
  cases hlookup : x.fdToRecord.lookup fd with
  | none => exact h
  | some oldRecord =>
      rw [hlookup] at hmaps
      refine epollInv_update h hmaps rfl rfl rfl (fun e he => ?_) (fun _ => nofun) (fun _ => nofun)
        (fun _ => nofun)
      refine known_append (h.entries e ?_)
      cases hdelete : x.kernel.delete fd with
      | none =>
          change e ∈ ((x.kernel.delete fd).getD x.kernel).entries at he
          rw [hdelete] at he
          exact he
      | some k' =>
          change e ∈ ((x.kernel.delete fd).getD x.kernel).entries at he
          rw [hdelete] at he
          exact mem_delete hdelete he

/-- The events that leave the registrations as they are. -/
def Event.isUpdate : Event → Bool
  | .registered _ _ _ => true
  | .unregistered _ => true
  | _ => false

/-- Other events change nothing of what is in force. -/
theorem inForce_append (hes : ∀ e ∈ es, Event.isUpdate e = false) :
    inForce (log ++ es) = inForce log := by
  induction es generalizing log with
  | nil => rw [List.append_nil]
  | cons e rest ih =>
      obtain ⟨he, hrest⟩ := List.forall_mem_cons.mp hes
      rw [List.append_cons, ih hrest, inForce_snoc]
      cases e with
      | registered _ _ _ => exact nomatch he
      | unregistered _ => exact nomatch he
      | _ => rfl

/-- Other events keep the maps in order. -/
theorem mapInv_append {y : EpollLoop} (h : MapInv x) (hlog : y.log = x.log ++ es)
    (hes : ∀ e ∈ es, Event.isUpdate e = false) (hfds : y.fdToRecord = x.fdToRecord)
    (hhandlers : y.recordToHandler = x.recordToHandler) (hnext : y.nextRecord = x.nextRecord) :
    MapInv y := by
  have hmem : ∀ {record fd h'}, .registered record fd h' ∈ y.log →
      .registered record fd h' ∈ x.log := by
    intro record fd h' hin
    rw [hlog] at hin
    rcases List.mem_append.mp hin with hold | hnew
    · exact hold
    · exact nomatch hes _ hnew
  refine ⟨?_, ?_, ?_, ?_, ?_, ?_⟩
  · rw [hlog, inForce_append hes, hfds]
    exact h.fds
  · rw [hlog, inForce_append hes, hhandlers]
    exact h.handlers
  · rw [hnext]
    exact h.positive
  · have hnone : es.filterMap Event.record? = [] := by
      refine List.filterMap_eq_nil_iff.mpr (fun e he => ?_)
      cases e with
      | registered _ _ _ => exact nomatch hes _ he
      | _ => rfl
    rw [hlog, hnext, records, List.filterMap_append, hnone, List.append_nil]
    exact h.numbered
  · intro record fd h' hin
    rw [hnext]
    exact h.below _ _ _ (hmem hin)
  · exact fun _ _ _ _ _ hin hin' => h.unique _ _ _ _ _ (hmem hin) (hmem hin')

/-- Events that a log allows, whatever comes between. -/
theorem always_allowed {Q : List Event → Event → Prop} (h : Always Q log)
    (hes : ∀ e ∈ es, ∀ between, Q (log ++ between) e) : Always Q (log ++ es) := by
  induction es generalizing log with
  | nil => rw [List.append_nil]; exact h
  | cons e rest ih =>
      obtain ⟨he, hrest⟩ := List.forall_mem_cons.mp hes
      have hfirst := he []
      rw [List.append_nil] at hfirst
      rw [List.append_cons]
      refine ih (always_snoc.mpr ⟨h, hfirst⟩) (fun e' he' between => ?_)
      rw [List.append_assoc]
      exact hrest e' he' _

/-- Fetching events keeps the invariant. -/
theorem epollInv_fetch (h : EpollInv x) {ready : List (Entry × Nat)}
    (hready : ∀ r ∈ ready, r.1 ∈ x.kernel.entries) : EpollInv (x.fetch ready) := by
  have hes : ∀ e ∈ ready.map (fun r => Event.fetched r.1.fd r.1.record r.2),
      ∃ r ∈ ready, e = .fetched r.1.fd r.1.record r.2 := by
    intro e he
    obtain ⟨r, hr, rfl⟩ := List.mem_map.mp he
    exact ⟨r, hr, rfl⟩
  refine ⟨mapInv_append h.maps rfl ?_ rfl rfl rfl, fun e he => known_append (h.entries e he), ?_,
    ?_, ?_, ?_⟩
  · intro e he
    obtain ⟨r, -, rfl⟩ := hes e he
    rfl
  · intro record events hmem
    obtain ⟨r, hr, heq⟩ := List.mem_map.mp hmem
    obtain ⟨rfl, rfl⟩ := Prod.mk.inj heq
    exact ⟨r.1.fd, List.mem_append_right _ (List.mem_map.mpr ⟨r, hr, rfl⟩)⟩
  · refine always_allowed h.fetched (fun e he between fd record events heq => ?_)
    obtain ⟨r, hr, rfl⟩ := hes e he
    obtain ⟨rfl, rfl, -⟩ := Event.fetched.inj heq
    exact known_append (h.entries r.1 (hready r hr))
  · refine always_append h.dispatched (fun e he before => ?_)
    obtain ⟨r, -, rfl⟩ := hes e he
    exact nofun
  · refine always_append h.dropped (fun e he before => ?_)
    obtain ⟨r, -, rfl⟩ := hes e he
    exact nofun

/-- The descriptor of an event is that of its registration. -/
theorem EpollInv.fetched_fd (h : EpollInv x) {fd fd' record events handler : Nat}
    (hfetched : .fetched fd record events ∈ x.log)
    (hforce : inForce x.log fd' = some (record, handler)) : fd = fd' := by
  have hmem := inForce_known hforce
  obtain ⟨before, after, hlog⟩ := List.append_of_mem hfetched
  rcases h.fetched before _ after hlog fd record events rfl with ⟨rfl, -⟩ | ⟨-, handler', hmem'⟩
  · exact absurd (h.maps.below _ _ _ hmem).1 (Nat.lt_irrefl _)
  · refine (h.maps.unique record fd handler' fd' handler ?_ hmem).1
    rw [hlog]
    exact List.mem_append_left _ hmem'

/-- Handling an event keeps the invariant. -/
theorem epollInv_handleEvent (h : EpollInv x) : EpollInv x.handleEvent := by
  rw [handleEvent]
  cases hbatch : x.batch with
  | nil => exact h
  | cons event rest =>
      obtain ⟨record, events⟩ := event
      obtain ⟨fd, hfetched⟩ := h.batch record events (by rw [hbatch]; exact List.mem_cons_self ..)
      have hrest : ∀ {e : Event} record' events', (record', events') ∈ rest →
          ∃ fd, .fetched fd record' events' ∈ x.log ++ [e] := by
        intro e record' events' hmem
        obtain ⟨fd', hin⟩ := h.batch record' events'
          (by rw [hbatch]; exact List.mem_cons_of_mem _ hmem)
        exact ⟨fd', List.mem_append_left _ hin⟩
      cases hlookup : x.recordToHandler.lookup record with
      | none =>
          simp only [hlookup]
          refine ⟨mapInv_append h.maps rfl (List.forall_mem_singleton.mpr rfl) rfl rfl rfl,
            fun e he => known_append (h.entries e he), hrest,
            always_snoc.mpr ⟨h.fetched, nofun⟩, always_snoc.mpr ⟨h.dispatched, nofun⟩,
            always_snoc.mpr ⟨h.dropped, ?_⟩⟩
          intro record' events' heq
          obtain ⟨rfl, rfl⟩ := Event.dropped.inj heq
          refine ⟨⟨fd, hfetched⟩, fun fd' h' hforce => ?_⟩
          exact nomatch hlookup.symm.trans ((h.maps.handlers _ _).mpr ⟨fd', hforce⟩)
      | some handler =>
          simp only [hlookup]
          refine ⟨mapInv_append h.maps rfl (List.forall_mem_singleton.mpr rfl) rfl rfl rfl,
            fun e he => known_append (h.entries e he), hrest,
            always_snoc.mpr ⟨h.fetched, nofun⟩, always_snoc.mpr ⟨h.dispatched, ?_⟩,
            always_snoc.mpr ⟨h.dropped, nofun⟩⟩
          intro record' handler' events' heq
          obtain ⟨rfl, rfl, rfl⟩ := Event.dispatched.inj heq
          obtain ⟨fd', hforce⟩ := (h.maps.handlers _ _).mp hlookup
          refine ⟨fd', hforce, ?_⟩
          rw [← h.fetched_fd hfetched hforce]
          exact hfetched

/-- **Step lemma.** -/
theorem epollInv_step (h : EpollInv x) (s : Step) (henabled : x.enabled s) :
    EpollInv (x.step s) := by
  cases s with
  | registerDescriptor fd events handler =>
      exact epollInv_registerDescriptor h events handler henabled
  | unregisterDescriptor fd => exact epollInv_unregisterDescriptor h fd
  | openFd fd file =>
      exact ⟨⟨h.maps.fds, h.maps.handlers, h.maps.positive, h.maps.numbered, h.maps.below,
        h.maps.unique⟩, h.entries, h.batch, h.fetched, h.dispatched, h.dropped⟩
  | closeFd fd =>
      exact ⟨⟨h.maps.fds, h.maps.handlers, h.maps.positive, h.maps.numbered, h.maps.below,
        h.maps.unique⟩, fun e he => h.entries e (List.mem_of_mem_filter he), h.batch, h.fetched,
        h.dispatched, h.dropped⟩
  | fetch ready => exact epollInv_fetch h henabled.2.2
  | handleEvent => exact epollInv_handleEvent h

/-- **Run lemma.** -/
theorem epollInv_reachable {file : Nat} (h : Reachable eventFd file x) : EpollInv x := by
  induction h with
  | init => exact epollInv_init eventFd file
  | step _ s henabled ih => exact epollInv_step ih s henabled

end Events

/-- What the loop promises. -/
structure EventSafety (x : EpollLoop) : Prop where
  /-- Each registered descriptor has a record with a handler. -/
  handled : ∀ fd record, x.fdToRecord.lookup fd = some record →
    ∃ h, x.recordToHandler.lookup record = some h ∧ .registered record fd h ∈ x.log
  /-- Each record with a handler is that of one descriptor. -/
  owned : ∀ record h, x.recordToHandler.lookup record = some h →
    ∃! fd, x.fdToRecord.lookup fd = some record
  /-- Each registration has a record of its own. -/
  fresh : (records x.log).Nodup
  /-- An event is fetched for a registration, or for the eventfd. -/
  fetched : Always (FetchedOk x.eventFd) x.log
  /-- An event is dispatched to the handler of its registration, which is still in force. -/
  dispatched : Always DispatchedOk x.log
  /-- An event is dropped if its registration was replaced or removed, and only then. -/
  dropped : Always DroppedOk x.log
  /-- The record of the eventfd is that of no handler. -/
  eventfd : x.recordToHandler.lookup 0 = none
    ∧ ∀ e ∈ x.kernel.entries, e.fd = x.eventFd → e.record = 0

/-- **Events never reach the wrong handler.**  In every state of every run, whatever is
    registered, unregistered, closed and reused while a batch is being processed. -/
theorem events_reach_their_handler {eventFd file : Nat} {x : EpollLoop}
    (h : Reachable eventFd file x) : EventSafety x := by
  have hinv := epollInv_reachable h
  refine ⟨fun fd record hlookup => ?_, fun record handler hlookup => ?_, ?_, hinv.fetched,
    hinv.dispatched, hinv.dropped, ?_, fun e he hfd => ?_⟩
  · rw [hinv.maps.fds] at hlookup
    obtain ⟨⟨record', handler⟩, hforce, rfl⟩ := Option.map_eq_some_iff.mp hlookup
    exact ⟨handler, (hinv.maps.handlers _ _).mpr ⟨fd, hforce⟩, inForce_known hforce⟩
  · obtain ⟨fd, hforce⟩ := (hinv.maps.handlers _ _).mp hlookup
    refine ⟨fd, (hinv.maps.fds fd).trans (congrArg _ hforce), fun fd' hfd' => ?_⟩
    change x.fdToRecord.lookup fd' = some record at hfd'
    rw [hinv.maps.fds] at hfd'
    obtain ⟨⟨record', handler'⟩, hforce', rfl⟩ := Option.map_eq_some_iff.mp hfd'
    exact hinv.maps.inForce_unique hforce' hforce
  · rw [hinv.maps.numbered]
    exact List.nodup_range'
  · cases hlookup : x.recordToHandler.lookup 0 with
    | none => rfl
    | some handler =>
        obtain ⟨fd, hforce⟩ := (hinv.maps.handlers _ _).mp hlookup
        exact absurd (hinv.maps.below _ _ _ (inForce_known hforce)).1 (Nat.lt_irrefl _)
  · rcases hinv.entries e he with ⟨hzero, -⟩ | ⟨hne, -⟩
    · exact hzero
    · exact absurd hfd hne

/-- A descriptor is registered, fetched, and registered again before its event is handled. -/
theorem events_reach_their_handler_stale : ∃ x, Reachable 3 0 x ∧ EventSafety x
    ∧ x.log = [.registered 1 5 70, .fetched 5 1 1, .unregistered 5, .registered 2 5 71,
      .dropped 1 1] := by
  have hother : (5 : Nat) ≠ 3 := by decide
  have hopen : Reachable 3 0 ((init 3 0).step (.openFd 5 9)) := .step .init (.openFd 5 9) rfl
  have hfetched : Reachable 3 0 _ := .step (.step hopen (.registerDescriptor 5 1 70) hother)
    (.fetch [({ fd := 5, file := 9, record := 1, events := 1 }, 1)])
    ⟨rfl, by decide, List.forall_mem_singleton.mpr (by decide)⟩
  have hclosed : Reachable 3 0 _ := .step (.step hfetched (.unregisterDescriptor 5)
    (AList.lookup_isSome.mp rfl)) (.closeFd 5) hother
  have hstale : Reachable 3 0 _ := .step (.step (.step hclosed (.openFd 5 10) rfl)
    (.registerDescriptor 5 1 71) hother) .handleEvent trivial
  exact ⟨_, hstale, events_reach_their_handler hstale, rfl⟩

end EpollLoop

end TpEpoll
