import Mathlib.Tactic.Common
import Tensorpipe.RingProgressProofs

/-! # Two connections over shared memory

    Each end of a connection has an inbox, a ring that it reads and that its peer writes.
    Whoever moves bytes on a ring triggers the reactor of the other end, with the token of
    its inbox or of its outbox; the reaction tries the front operation again.  Tokens are
    pushed after the bytes have moved, and nothing else wakes an operation up: the event
    loop does not look at the rings by itself.

    The loops over the operations run within tasks of the event loop, and each step of the
    calls that they make can fall between any two steps of the other end.  Tokens reach an
    end in any order, and at any time after they were pushed.

    An end that fails has no operations any more, and drops its tokens; the results are
    about two ends neither of which has failed. -/

namespace TpShm

open TpRing

-- ── The ends ─────────────────────────────────────────────────────────────────

/-- The states of a connection: the two halves of the handshake, then the ring buffers. -/
inductive State where
  | INITIALIZING
  | SEND_FDS
  | RECV_FDS
  | ESTABLISHED
deriving DecidableEq, Repr

/-- The length of each ring buffer. -/
def kBufferSize : UInt64 := 2 * 1024 * 1024

/-- One end, apart from its rings.  `loops` are the `process…OperationsFromLoop` that the
    current task still has to run, the one it is in first; `returned` says that a call of
    `handleRead` or `handleWrite` has returned, and whether the operation is completed;
    `tokens` are those pushed to this end and not yet popped, of its inbox (`reads`) and of
    its outbox (`writes`). -/
structure ConnectionImpl where
  state : State := .INITIALIZING
  error : Bool := false
  loops : List Way := []
  returned : Option Bool := none
  tokens : Way → Nat := fun _ => 0

namespace ConnectionImpl

/-- The start of a `process…OperationsFromLoop`. -/
def processOperationsFromLoop (c : ConnectionImpl) (way : Way) : ConnectionImpl :=
  if c.state = .ESTABLISHED then { c with loops := [way] } else c

/-- The reactor of an end got the token of a reaction. -/
def pushToken (c : ConnectionImpl) (way : Way) : ConnectionImpl :=
  { c with tokens := Function.update c.tokens way (c.tokens way + 1) }

/-- The reactor of an end has taken a token and runs its reaction. -/
def popToken (c : ConnectionImpl) (way : Way) : ConnectionImpl :=
  { c with tokens := Function.update c.tokens way (c.tokens way - 1) }

/-- The token that was pushed is there. -/
theorem pushToken_self (c : ConnectionImpl) (way : Way) :
    (c.pushToken way).tokens way = c.tokens way + 1 :=
  Function.update_self _ _ _

/-- Pushing a token takes none away. -/
theorem tokens_le_pushToken (c : ConnectionImpl) (way way' : Way) :
    c.tokens way' ≤ (c.pushToken way).tokens way' := by
  by_cases hway : way' = way
  · rw [hway, pushToken_self]
    exact Nat.le_succ _
  · exact Nat.le_of_eq (Function.update_of_ne hway _ _).symm

/-- Taking a token leaves those of the other reaction. -/
theorem popToken_ne (c : ConnectionImpl) {way way' : Way} (hway : way' ≠ way) :
    (c.popToken way).tokens way' = c.tokens way' :=
  Function.update_of_ne hway _ _

end ConnectionImpl

/-- The end whose inbox this end works on: its own, or that of its peer. -/
def ringOf (e : Bool) : Way → Bool
  | .reads => e
  | .writes => !e

/-- What an end does next: a task of its event loop, or a step within one. -/
inductive Event (α : Type) where
  | initImplFromLoop
  | read (target : Target α)
  | write (content : Content α)
  | handleEventOut
  | handleEventIn
  | reaction (way : Way)
  | setError
  | run

/-- Both ends, and the inbox of each; `asked` and `written` are the reads and the writes
    issued so far on each inbox. -/
structure World (α : Type) where
  inbox : Bool → Stream α
  ends : Bool → ConnectionImpl := fun _ => {}
  asked : Bool → List (Target α) := fun _ => []
  written : Bool → List (Content α) := fun _ => []

section World

variable {α : Type} (holder : AbstractNopHolder α)

namespace World

/-- The world with another state of one end. -/
def setEnd (w : World α) (e : Bool) (c : ConnectionImpl) : World α :=
  { w with ends := Function.update w.ends e c }

/-- The world with another ring, of those that one end reads. -/
def setInbox (w : World α) (e : Bool) (s : Stream α) : World α :=
  { w with inbox := Function.update w.inbox e s }

/-- A read at one end, which is queued and then served as far as the ring allows. -/
def readImplFromLoop (w : World α) (e : Bool) (target : Target α) : World α :=
  let s := w.inbox e
  let s := { s with reader := { s.reader with ops := s.reader.ops ++ [.make target] } }
  { w.setInbox e s with
    asked := Function.update w.asked e (w.asked e ++ [target]) }.setEnd e
      ((w.ends e).processOperationsFromLoop .reads)

/-- A write at one end, which is queued and then served as far as the ring allows. -/
def writeImplFromLoop (w : World α) (e : Bool) (content : Content α) : World α :=
  let s := w.inbox (!e)
  let s := { s with writer := { s.writer with ops := s.writer.ops ++ [.make holder content] } }
  { w.setInbox (!e) s with
    written := Function.update w.written (!e) (w.written (!e) ++ [content]) }.setEnd e
      ((w.ends e).processOperationsFromLoop .writes)

/-- What the first error of an end does: its operations are given up. -/
def handleErrorImpl (w : World α) (e : Bool) : World α :=
  let s := w.inbox e
  let s := { s with reader := { s.reader with ops := [] } }
  let t := w.inbox (!e)
  let t := { t with writer := { t.writer with ops := [] } }
  ((w.setInbox e s).setInbox (!e) t).setEnd e { w.ends e with error := true }

/-- A task. -/
def handle (w : World α) (e : Bool) : Event α → Option (World α)
  | .initImplFromLoop =>
      if (w.ends e).state = .INITIALIZING ∧ (w.ends e).error = false then
        some (w.setEnd e { w.ends e with state := .SEND_FDS })
      else none
  | .read target => some (if (w.ends e).error = true then w else w.readImplFromLoop e target)
  | .write content =>
      some (if (w.ends e).error = true then w else w.writeImplFromLoop holder e content)
  | .handleEventOut =>
      if (w.ends e).state = .SEND_FDS ∧ (w.ends e).error = false then
        some (w.setEnd e { w.ends e with state := .RECV_FDS })
      else none
  | .handleEventIn =>
      -- the peer has sent its descriptors
      if (w.ends e).state = .RECV_FDS ∧ (w.ends e).error = false
          ∧ ((w.ends (!e)).state = .RECV_FDS ∨ (w.ends (!e)).state = .ESTABLISHED) then
        some (w.setEnd e { w.ends e with state := .ESTABLISHED, loops := [.writes, .reads] })
      else none
  | .reaction way =>
      if (w.ends e).tokens way = 0 then none
      else
        let c := (w.ends e).popToken way
        some (w.setEnd e (if c.error = true then c else c.processOperationsFromLoop way))
  | .setError => some (if (w.ends e).error = true then w else w.handleErrorImpl e)
  | .run => none

/-- The current task goes on: it goes around the loop that it is in, steps a call of
    `handleRead` or `handleWrite`, or triggers the reactor of the peer after one. -/
def run (w : World α) (e : Bool) : Option (World α) :=
  let c := w.ends e
  match c.loops with
  | [] => none
  | way :: rest =>
      let s := w.inbox (ringOf e way)
      match c.returned with
      | some completed =>
          let w := if 0 < (s.handling way).now then
            w.setEnd (!e) ((w.ends (!e)).pushToken way.other) else w
          some (w.setEnd e { c with
            returned := none, loops := if completed = true then way :: rest else rest })
      | none =>
          if (s.handling way).extents.isEmpty = true then
            some (w.setEnd e { c with loops := rest })
          else
            (s.step holder way).map (fun s' =>
              let w := w.setInbox (ringOf e way) s'
              -- an operation that is completed has been popped
              let completed : Bool :=
                (s'.handling way).extents.length < (s.handling way).extents.length
              if (s'.handling way).point = .start then
                w.setEnd e { c with returned := some completed }
              else w)

/-- A step of one end: a transaction of a loop that is under way, or the next event. -/
def step (w : World α) (e : Bool) : Event α → Option (World α)
  | .run => w.run holder e
  | event => if (w.ends e).loops = [] then w.handle holder e event else none

/-- Two ends of a new connection. -/
def make (data : Bool → Nat → UInt8) : World α where
  inbox e := .make holder kBufferSize (data e) [] []

/-- The states of two ends, under any interleaving of their steps. -/
inductive Reachable : World α → Prop where
  | make (data : Bool → Nat → UInt8) : Reachable (make holder data)
  | step {w w' : World α} (e : Bool) (event : Event α) (hw : Reachable w)
      (hstep : w.step holder e event = some w') : Reachable w'

/-- The steps of a list, as far as each can happen. -/
def trace (w : World α) : List (Bool × Event α) → Option (World α)
  | [] => some w
  | (e, event) :: rest => (w.step holder e event).bind (fun w => w.trace rest)

/-- The steps of a list lead to a world that can be reached. -/
theorem Reachable.trace {holder : AbstractNopHolder α} (events : List (Bool × Event α)) :
    ∀ {w w' : World α}, Reachable holder w → w.trace holder events = some w' →
      Reachable holder w' := by
  induction events with
  | nil =>
      rintro w w' hw htrace
      obtain rfl := Option.some.inj htrace
      exact hw
  | cons event rest ih =>
      rintro w w' hw htrace
      obtain ⟨w₁, hstep, hrest⟩ := Option.bind_eq_some_iff.mp htrace
      exact ih (hw.step event.1 event.2 hstep) hrest

end World

end World

-- ── What keeps an operation from being forgotten ─────────────────────────────

/-- The task is in the loop of this way, and not between a call and its trigger. -/
def ConnectionImpl.Active (c : ConnectionImpl) (way : Way) : Prop :=
  c.loops.head? = some way ∧ c.returned = none

/-- The end will not look at this ring any more in the current task, if any. -/
def ConnectionImpl.Parked (c : ConnectionImpl) (way : Way) : Prop :=
  c.state = .ESTABLISHED
    ∧ (way ∉ c.loops ∨ c.loops.head? = some way ∧ c.returned = some false)

section Side

variable {α : Type}

/-- The end has moved bytes on this ring, and has still to trigger its peer. -/
def Owing (c : ConnectionImpl) (way : Way) (s : Stream α) : Prop :=
  c.loops.head? = some way
    ∧ (c.returned.isSome = true ∧ 0 < (s.handling way).now ∨ s.Owes way)

/-- A token is under way to this end, or will be. -/
def Told (c peer : ConnectionImpl) (way : Way) (s : Stream α) : Prop :=
  0 < c.tokens way ∨ Owing peer way.other s

/-- The front operation finds less than it wants. -/
def Stuck (cap : Nat) (s : Stream α) (way : Way) : Prop :=
  ∀ x ∈ (s.handling way).extents.head?, s.available cap way < x.wanted

/-- One end on one of its rings.  Whatever it does not know, it will be told. -/
structure SideInv (cap : Nat) (c peer : ConnectionImpl) (way : Way) (s : Stream α) : Prop where
  counts : s.Counts way
  none : (s.handling way).extents = [] → (s.handling way).point = .start
  still : ¬ c.Active way → (s.handling way).point = .start
  active : c.Active way → s.Looks cap way ∨ Told c peer way s
  parked : c.Parked way → Stuck cap s way ∨ Told c peer way s

variable {cap : Nat} {c c' peer peer' : ConnectionImpl} {way : Way} {s s' : Stream α}

/-- Between two calls. -/
theorem SideInv.ofStart (hstart : (s.handling way).point = .start)
    (hparked : c.Parked way → Stuck cap s way ∨ Told c peer way s) :
    SideInv cap c peer way s := by
  refine ⟨?_, fun _ => hstart, fun _ => hstart, fun _ => Or.inl ?_, hparked⟩
  · intro x _
    rw [hstart]
    trivial
  · intro x _
    rw [hstart]
    trivial

/-- What the peer does: it may move its marker, and then this end will be told. -/
theorem SideInv.frame (h : SideInv cap c peer way s)
    (hhandling : s'.handling way = s.handling way) (hrole : s'.role way = s.role way)
    (hloops : c'.loops = c.loops) (hreturned : c'.returned = c.returned)
    (hstate : c'.state = c.state)
    (htold : Told c peer way s → Told c' peer' way s')
    (hpos : s'.history.pos = s.history.pos ∨ Told c' peer' way s') :
    SideInv cap c' peer' way s' := by
  have hactive : c'.Active way ↔ c.Active way := by
    rw [ConnectionImpl.Active, ConnectionImpl.Active, hloops, hreturned]
  have hparked : c'.Parked way ↔ c.Parked way := by
    rw [ConnectionImpl.Parked, ConnectionImpl.Parked, hloops, hreturned, hstate]
  have havail : s'.history.pos = s.history.pos → s'.available cap way = s.available cap way := by
    intro hsame
    rw [Stream.available, Stream.available, hsame, hrole]
  refine ⟨?_, ?_, ?_, ?_, ?_⟩
  · rw [Stream.Counts, hhandling, hrole]
    exact h.counts
  · rw [hhandling]
    exact h.none
  · rw [hhandling, hactive]
    exact h.still
  · rw [hactive]
    intro hyes
    rcases hpos with hsame | hnow
    · refine (h.active hyes).imp ?_ htold
      rw [Stream.Looks, Stream.Looks, hhandling, hrole, havail hsame]
      exact id
    · exact Or.inr hnow
  · rw [hparked]
    intro hyes
    rcases hpos with hsame | hnow
    · refine (h.parked hyes).imp ?_ htold
      rw [Stuck, Stuck, hhandling, havail hsame]
      exact id
    · exact Or.inr hnow

/-- A call goes on. -/
theorem SideInv.onward (h : SideInv cap c peer way s) (hactive : c.Active way)
    (hother : s'.handling way.other = s.handling way.other
      ∧ s'.role way.other = s.role way.other)
    {x' : Extent} {rest : List Extent} (hextents' : (s'.handling way).extents = x' :: rest)
    (hcounts : s'.Counts way) (hlooks : s.Looks cap way → s'.Looks cap way) :
    SideInv cap c peer way s' := by
  have htold : Told c peer way s → Told c peer way s' := by
    rintro (htokens | ⟨hhead, howing⟩)
    · exact Or.inl htokens
    · refine Or.inr ⟨hhead, ?_⟩
      rw [Stream.Owes, hother.1, hother.2]
      exact howing
  refine ⟨hcounts, ?_, fun hno => absurd hactive hno, ?_, ?_⟩
  · rw [hextents']
    exact fun hnil => absurd hnil (by simp)
  · intro _
    exact (h.active hactive).imp hlooks htold
  · rintro ⟨-, hout | ⟨-, hreturned⟩⟩
    · exact absurd (List.mem_of_mem_head? hactive.1) hout
    · exact absurd (hactive.2.symm.trans hreturned) (by simp)

end Side

-- ── Both ends ────────────────────────────────────────────────────────────────

/-- An end is in a loop only once it is established, and goes around each loop once. -/
structure EndInv (c : ConnectionImpl) : Prop where
  established : c.loops ≠ [] → c.state = .ESTABLISHED
  nodup : c.loops.Nodup
  returned : c.loops = [] → c.returned = none

section Both

variable {α : Type} {holder : AbstractNopHolder α} {cap : Nat}

/-- Both ends, with the reads and the writes that are still to be issued. -/
structure WorldInv (holder : AbstractNopHolder α) (cap : Nat) (reads : Bool → List (Target α))
    (more : Bool → List (Content α)) (w : World α) : Prop where
  streams : ∀ e, ∃ put, StreamInv holder cap (w.written e ++ more e)
    ((w.inbox e).later holder (reads e) (more e)) put
  ends : ∀ e, EndInv (w.ends e)
  sides : ∀ e way, SideInv cap (w.ends e) (w.ends (!e)) way (w.inbox (ringOf e way))

variable {reads : Bool → List (Target α)} {more : Bool → List (Content α)} {w w' : World α}
  {e : Bool}

/-- One end reads the ring that the other end writes. -/
theorem ringOf_other (e : Bool) (way : Way) : ringOf (!e) way.other = ringOf e way := by
  cases e <;> cases way <;> rfl

/-- The rings seen from the other end. -/
theorem ringOf_not (e : Bool) (way : Way) : ringOf (!e) way = ringOf e way.other := by
  cases e <;> cases way <;> rfl

/-- The two rings of an end are different. -/
theorem ringOf_ne (e : Bool) (way : Way) : ringOf e way.other ≠ ringOf e way := by
  cases e <;> cases way <;> decide

/-- Reading and writing are different. -/
theorem other_ne (way : Way) : way.other ≠ way := by
  cases way <;> decide

/-- The other of the other way. -/
theorem other_other (way : Way) : way.other.other = way := by
  cases way <;> rfl

/-- There are two ways only. -/
theorem eq_other {way way' : Way} (h : way' ≠ way) : way' = way.other := by
  cases way <;> cases way' <;> first | rfl | exact absurd rfl h

/-- The two sides of the ring that an end is at, and the other two. -/
theorem each_side {P : Bool → Way → Prop} (e : Bool) (way : Way) (hown : P e way)
    (hpeer : P (!e) way.other) (hother : P e way.other) (hcross : P (!e) way) :
    ∀ e' way', P e' way' := by
  intro e' way'
  rcases Bool.eq_or_eq_not e' e with rfl | rfl
  · by_cases hway : way' = way
    · rw [hway]
      exact hown
    · rw [eq_other hway]
      exact hother
  · by_cases hway : way' = way
    · rw [hway]
      exact hcross
    · rw [eq_other hway]
      exact hpeer

/-- The end that was set. -/
@[simp] theorem setEnd_self (w : World α) (e : Bool) (c : ConnectionImpl) :
    (w.setEnd e c).ends e = c := Function.update_self _ _ _

/-- The other end is as it was. -/
@[simp] theorem setEnd_not (w : World α) (e : Bool) (c : ConnectionImpl) :
    (w.setEnd e c).ends (!e) = w.ends (!e) := Function.update_of_ne (by simp) _ _

/-- Setting the other end leaves this one as it was. -/
@[simp] theorem setEnd_of_not (w : World α) (e : Bool) (c : ConnectionImpl) :
    (w.setEnd (!e) c).ends e = w.ends e := Function.update_of_ne (by simp) _ _

/-- Setting an end leaves the rings as they were. -/
@[simp] theorem setEnd_inbox (w : World α) (e : Bool) (c : ConnectionImpl) :
    (w.setEnd e c).inbox = w.inbox := rfl

/-- The ring that was set. -/
@[simp] theorem setInbox_self (w : World α) (e : Bool) (s : Stream α) :
    (w.setInbox e s).inbox e = s := Function.update_self _ _ _

/-- The other ring is as it was. -/
theorem setInbox_ne (w : World α) {e e' : Bool} (s : Stream α) (hne : e' ≠ e) :
    (w.setInbox e s).inbox e' = w.inbox e' := Function.update_of_ne hne _ _

-- ── Steps within a task ──────────────────────────────────────────────────────

/-- The side of an end that its task is not at. -/
theorem WorldInv.other (hinv : WorldInv holder cap reads more w) {way : Way} {rest : List Way}
    (hloops : (w.ends e).loops = way :: rest) {c peer : ConnectionImpl}
    (hrest : way.other ∉ c.loops → way.other ∉ rest)
    (hhead : c.loops.head? = some way.other → c.returned = none)
    (hstate : c.state = (w.ends e).state) (htokens : c.tokens = (w.ends e).tokens)
    (hloops' : peer.loops = (w.ends (!e)).loops)
    (hreturned' : peer.returned = (w.ends (!e)).returned) :
    SideInv cap c peer way.other (w.inbox (ringOf e way.other)) := by
  have hside := hinv.sides e way.other
  have hnot : ¬ (w.ends e).Active way.other := by
    rintro ⟨hno, -⟩
    rw [hloops] at hno
    exact other_ne way (Option.some.inj hno).symm
  refine .ofStart (hside.still hnot) ?_
  rintro ⟨hestablished, hout | ⟨hyes, hfalse⟩⟩
  · have hparked : (w.ends e).Parked way.other := by
      refine ⟨hstate ▸ hestablished, Or.inl ?_⟩
      rw [hloops]
      intro hin
      rcases List.mem_cons.mp hin with hsame | hin
      · exact other_ne way hsame
      · exact hrest hout hin
    refine (hside.parked hparked).imp id ?_
    rw [Told, Told, Owing, Owing, htokens, hloops', hreturned']
    exact id
  · exact absurd ((hhead hyes).symm.trans hfalse) (by simp)

/-- The side of the peer on the other ring. -/
theorem WorldInv.cross (hinv : WorldInv holder cap reads more w) {way : Way} {rest : List Way}
    (hloops : (w.ends e).loops = way :: rest) {c peer : ConnectionImpl}
    (hloops' : peer.loops = (w.ends (!e)).loops)
    (hreturned' : peer.returned = (w.ends (!e)).returned)
    (hstate' : peer.state = (w.ends (!e)).state)
    (htokens' : (w.ends (!e)).tokens way ≤ peer.tokens way) :
    SideInv cap peer c way (w.inbox (ringOf (!e) way)) := by
  have hside := hinv.sides (!e) way
  rw [Bool.not_not] at hside
  refine hside.frame rfl rfl hloops' hreturned' hstate' ?_ (Or.inl rfl)
  rintro (htoken | ⟨hhead, -⟩)
  · exact Or.inl (Nat.lt_of_lt_of_le htoken htokens')
  · rw [hloops] at hhead
    exact absurd (Option.some.inj hhead).symm (other_ne way)

/-- An end goes from one loop of a task to the next, or around it again; if it has moved
    bytes then it triggers its peer. -/
theorem WorldInv.turn (hinv : WorldInv holder cap reads more w) {way : Way} {rest : List Way}
    (hloops : (w.ends e).loops = way :: rest)
    (hstart : ((w.inbox (ringOf e way)).handling way).point = .start) (again : Bool)
    (hparked : again = false → Stuck cap (w.inbox (ringOf e way)) way
      ∨ Told (w.ends e) (w.ends (!e)) way (w.inbox (ringOf e way))) (peer : ConnectionImpl)
    (hloops' : peer.loops = (w.ends (!e)).loops)
    (hreturned' : peer.returned = (w.ends (!e)).returned)
    (hstate' : peer.state = (w.ends (!e)).state)
    (htokens' : ∀ way', (w.ends (!e)).tokens way' ≤ peer.tokens way')
    (htold : (w.ends e).returned.isSome = true →
      0 < ((w.inbox (ringOf e way)).handling way).now → 0 < peer.tokens way.other)
    (hends : w'.ends e = { w.ends e with
      returned := none, loops := if again = true then way :: rest else rest })
    (hends' : w'.ends (!e) = peer) (hinbox : w'.inbox = w.inbox)
    (hwritten : w'.written = w.written) : WorldInv holder cap reads more w' := by
  have hend := hinv.ends e
  have hnodup : (way :: rest).Nodup := hloops ▸ hend.nodup
  have hestablished : (w.ends e).state = .ESTABLISHED := hend.established (by rw [hloops]; simp)
  refine ⟨?_, ?_, ?_⟩
  · rw [hinbox, hwritten]
    exact hinv.streams
  · intro e'
    rcases Bool.eq_or_eq_not e' e with rfl | rfl
    · rw [hends]
      refine ⟨fun _ => hestablished, ?_, fun _ => rfl⟩
      show (if again = true then way :: rest else rest).Nodup
      split
      · exact hnodup
      · exact hnodup.tail
    · have hpeer := hinv.ends (!e)
      rw [hends']
      refine ⟨?_, ?_, ?_⟩
      · rw [hloops', hstate']
        exact hpeer.established
      · rw [hloops']
        exact hpeer.nodup
      · rw [hloops', hreturned']
        exact hpeer.returned
  · refine each_side e way ?_ ?_ ?_ ?_
    · rw [hends, hends', hinbox]
      refine .ofStart hstart ?_
      rintro ⟨-, hout | ⟨-, hno⟩⟩
      · cases again with
        | true => exact absurd (List.mem_cons_self ..) hout
        | false =>
            refine (hparked rfl).imp id ?_
            rw [Told, Told, Owing, Owing, hloops', hreturned']
            exact id
      · exact absurd hno (by simp)
    · have hside := hinv.sides (!e) way.other
      rw [Bool.not_not, ringOf_other] at hside
      rw [hends', Bool.not_not, hends, hinbox, ringOf_other]
      refine hside.frame rfl rfl hloops' hreturned' hstate' ?_ (Or.inl rfl)
      rintro (htoken | ⟨-, howing⟩)
      · exact Or.inl (Nat.lt_of_lt_of_le htoken (htokens' _))
      · rw [other_other] at howing
        rcases howing with ⟨hsome, hnow⟩ | ⟨hcommit, -⟩
        · exact Or.inl (htold hsome hnow)
        · exact absurd (hstart.symm.trans hcommit) Point.noConfusion
    · rw [hends, hends', hinbox]
      refine hinv.other hloops ?_ (fun _ => rfl) rfl rfl hloops' hreturned'
      intro hout
      cases again with
      | true => exact fun hin => hout (List.mem_cons_of_mem _ hin)
      | false => exact hout
    · rw [hends', Bool.not_not, hinbox]
      exact hinv.cross hloops hloops' hreturned' hstate' (htokens' way)

/-- The peer's side of the ring that a call works on. -/
theorem WorldInv.watched (hinv : WorldInv holder cap reads more w) {way : Way}
    {s' : Stream α} (hcall : CallStep cap way (w.inbox (ringOf e way)) s')
    (hother : s'.handling way.other = (w.inbox (ringOf e way)).handling way.other
      ∧ s'.role way.other = (w.inbox (ringOf e way)).role way.other)
    (hhead : (w.ends e).loops.head? = some way) (hnone : (w.ends e).returned = none)
    {c : ConnectionImpl} (hloops : c.loops = (w.ends e).loops)
    (hreturned : (s'.handling way).point = .start → c.returned.isSome = true) :
    SideInv cap (w.ends (!e)) c way.other s' := by
  have hside := hinv.sides (!e) way.other
  rw [Bool.not_not, ringOf_other] at hside
  refine hside.frame hother.1 hother.2 rfl rfl rfl ?_ ?_
  · rintro (htoken | ⟨-, howing⟩)
    · exact Or.inl htoken
    · refine Or.inr ⟨?_, ?_⟩
      · rw [other_other, hloops]
        exact hhead
      · rw [other_other] at howing ⊢
        rcases howing with ⟨hsome, -⟩ | ⟨hcommit, hending, hnow⟩
        · rw [hnone] at hsome
          exact absurd hsome (by simp)
        · cases hcall with
          | onward x x' rest _ _ _ hcall _ _ _ => exact absurd hending hcall
          | returned x rest _ _ _ _ hpoint' hnow' _ _ =>
              exact Or.inl ⟨hreturned hpoint', hnow'.symm ▸ hnow⟩
  · cases hcall with
    | onward x x' rest _ _ _ _ _ _ hpos =>
        refine hpos.imp id fun howes => Or.inr ⟨?_, ?_⟩
        · rw [other_other, hloops]
          exact hhead
        · rw [other_other]
          exact Or.inr howes
    | returned x rest _ _ _ _ _ _ hpos _ => exact Or.inl hpos

/-- A call goes on, or returns. -/
theorem WorldInv.call (hinv : WorldInv holder cap reads more w)
    (hsend : ∀ e, ∀ c ∈ w.written e ++ more e, c.Sendable holder cap) {way : Way} {rest : List Way}
    (hloops : (w.ends e).loops = way :: rest) (hnone : (w.ends e).returned = none)
    {s' : Stream α} (hstep : (w.inbox (ringOf e way)).step holder way = some s')
    {c : ConnectionImpl}
    (hc : c = if (s'.handling way).point = .start then
      { w.ends e with returned := some (decide ((s'.handling way).extents.length
        < ((w.inbox (ringOf e way)).handling way).extents.length)) } else w.ends e) :
    WorldInv holder cap reads more ((w.setInbox (ringOf e way) s').setEnd e c) := by
  obtain ⟨put, hbefore⟩ := hinv.streams (ringOf e way)
  obtain ⟨hcall, hstream⟩ := later_call hbefore (hsend _) (hinv.sides e way).counts hstep
  have hother := Stream.step_other hstep
  have hhead : (w.ends e).loops.head? = some way := by
    rw [hloops]
    rfl
  have hsame : c.state = (w.ends e).state ∧ c.loops = (w.ends e).loops
      ∧ c.tokens = (w.ends e).tokens
      ∧ ((s'.handling way).point = .start → c.returned.isSome = true) := by
    rw [hc]
    split
    · exact ⟨rfl, rfl, rfl, fun _ => rfl⟩
    · rename_i hno
      exact ⟨rfl, rfl, rfl, fun hyes => absurd hyes hno⟩
  obtain ⟨hstate', hloops', htokens', hreturned'⟩ := hsame
  refine ⟨?_, ?_, ?_⟩
  · intro e'
    by_cases he : e' = ringOf e way
    · rw [he, setEnd_inbox, setInbox_self]
      exact hstream
    · rw [setEnd_inbox, setInbox_ne _ _ he]
      exact hinv.streams e'
  · intro e'
    rcases Bool.eq_or_eq_not e' e with rfl | rfl
    · have hend := hinv.ends e'
      rw [setEnd_self]
      refine ⟨?_, ?_, ?_⟩
      · rw [hstate', hloops']
        exact hend.established
      · rw [hloops']
        exact hend.nodup
      · rw [hloops', hloops]
        exact fun hno => absurd hno (by simp)
    · rw [setEnd_not]
      exact hinv.ends (!e)
  · refine each_side e way ?_ ?_ ?_ ?_
    · rw [setEnd_self, setEnd_not, setEnd_inbox, setInbox_self]
      have hside := hinv.sides e way
      cases hcall with
      | onward x x' rest' hextents hextents' hpoint' hnot hcounts hlooks hpos =>
          rw [if_neg hpoint'] at hc
          rw [hc]
          exact hside.onward ⟨hhead, hnone⟩ hother hextents' hcounts hlooks
      | returned x rest' hextents hcommit hending hrest hpoint' hnow' hpos htx =>
          refine .ofStart hpoint' ?_
          rintro ⟨-, hout | ⟨-, hfalse⟩⟩
          · rw [hloops', hloops] at hout
            exact absurd (List.mem_cons_self ..) hout
          · rw [hc, if_pos hpoint'] at hfalse
            rcases hrest with ⟨-, hrest⟩ | ⟨hnot, hrest⟩
            · rw [hrest, hextents, List.length_cons] at hfalse
              simp at hfalse
            · -- the last look holds
              refine (hside.active ⟨hhead, hnone⟩).imp ?_ ?_
              · intro hlooks y hy
                rw [hrest] at hy
                obtain rfl := Option.some.inj hy
                have hlooked := hlooks x (by rw [hextents]; rfl)
                rw [hcommit] at hlooked
                rcases hlooked with hyes | hless
                · exact absurd hyes hnot
                · have havail : s'.available cap way
                      = (w.inbox (ringOf e way)).available cap way := by
                    rw [Stream.available, Stream.available, available, available, hpos, htx]
                  rw [havail]
                  exact hless
              · rintro (htoken | ⟨hpeer, howing⟩)
                · exact Or.inl (htokens' ▸ htoken)
                · refine Or.inr ⟨hpeer, ?_⟩
                  rw [Stream.Owes, hother.1, hother.2]
                  exact howing
    · rw [Bool.not_not, setEnd_self, setEnd_not, setEnd_inbox, ringOf_other, setInbox_self]
      exact hinv.watched hcall hother hhead hnone hloops' hreturned'
    · rw [setEnd_self, setEnd_not, setEnd_inbox, setInbox_ne _ _ (ringOf_ne e way)]
      refine hinv.other hloops ?_ ?_ hstate' htokens' rfl rfl
      · rw [hloops', hloops]
        exact fun hout hin => hout (List.mem_cons_of_mem _ hin)
      · rw [hloops', hloops]
        exact fun hyes => absurd (Option.some.inj hyes).symm (other_ne way)
    · have hring : ringOf (!e) way ≠ ringOf e way := by
        rw [ringOf_not]
        exact ringOf_ne e way
      rw [Bool.not_not, setEnd_self, setEnd_not, setEnd_inbox, setInbox_ne _ _ hring]
      exact hinv.cross hloops rfl rfl rfl (Nat.le_refl _)

/-- What a step within a task can do. -/
inductive RunStep (holder : AbstractNopHolder α) (w : World α) (e : Bool) : World α → Prop where
  | triggers (way : Way) (rest : List Way) (completed : Bool)
      (hloops : (w.ends e).loops = way :: rest) (hreturned : (w.ends e).returned = some completed)
      (hnow : 0 < ((w.inbox (ringOf e way)).handling way).now) :
      RunStep holder w e ((w.setEnd (!e) ((w.ends (!e)).pushToken way.other)).setEnd e
        { w.ends e with
          returned := none, loops := if completed = true then way :: rest else rest })
  | around (way : Way) (rest : List Way) (completed : Bool)
      (hloops : (w.ends e).loops = way :: rest) (hreturned : (w.ends e).returned = some completed)
      (hnow : ¬ 0 < ((w.inbox (ringOf e way)).handling way).now) :
      RunStep holder w e (w.setEnd e { w.ends e with
        returned := none, loops := if completed = true then way :: rest else rest })
  | leaves (way : Way) (rest : List Way) (hloops : (w.ends e).loops = way :: rest)
      (hreturned : (w.ends e).returned = none)
      (hnil : ((w.inbox (ringOf e way)).handling way).extents = []) :
      RunStep holder w e (w.setEnd e { w.ends e with loops := rest })
  | returns (way : Way) (rest : List Way) (s' : Stream α)
      (hloops : (w.ends e).loops = way :: rest)
      (hreturned : (w.ends e).returned = none)
      (hstep : (w.inbox (ringOf e way)).step holder way = some s')
      (hstart : (s'.handling way).point = .start) :
      RunStep holder w e ((w.setInbox (ringOf e way) s').setEnd e { w.ends e with
        returned := some (decide ((s'.handling way).extents.length
          < ((w.inbox (ringOf e way)).handling way).extents.length)) })
  | onward (way : Way) (rest : List Way) (s' : Stream α)
      (hloops : (w.ends e).loops = way :: rest)
      (hreturned : (w.ends e).returned = none)
      (hstep : (w.inbox (ringOf e way)).step holder way = some s')
      (hstart : (s'.handling way).point ≠ .start) :
      RunStep holder w e (w.setInbox (ringOf e way) s')

/-- What one transaction does to the ring and to the end. -/
theorem World.run_step (hrun : w.run holder e = some w') : RunStep holder w e w' := by
  rw [World.run] at hrun
  dsimp only at hrun
  split at hrun
  · exact absurd hrun (by simp)
  · rename_i way rest hloops
    split at hrun
    · rename_i completed hreturned
      obtain rfl := Option.some.inj hrun
      by_cases hnow : 0 < ((w.inbox (ringOf e way)).handling way).now
      · rw [if_pos hnow]
        exact .triggers way rest completed hloops hreturned hnow
      · rw [if_neg hnow]
        exact .around way rest completed hloops hreturned hnow
    · rename_i hreturned
      split at hrun
      · rename_i hempty
        obtain rfl := Option.some.inj hrun
        exact .leaves way rest hloops hreturned (List.isEmpty_iff.mp hempty)
      · obtain ⟨s', hstep, rfl⟩ := Option.map_eq_some_iff.mp hrun
        by_cases hstart : (s'.handling way).point = .start
        · rw [if_pos hstart]
          exact .returns way rest s' hloops hreturned hstep hstart
        · rw [if_neg hstart]
          exact .onward way rest s' hloops hreturned hstep hstart

/-- After a call: if it did not complete its operation, the side is stuck, or will be told. -/
theorem WorldInv.returned (hinv : WorldInv holder cap reads more w) {way : Way} {rest : List Way}
    {completed : Bool} (hloops : (w.ends e).loops = way :: rest)
    (hreturned : (w.ends e).returned = some completed) :
    ((w.inbox (ringOf e way)).handling way).point = .start
      ∧ (completed = false → Stuck cap (w.inbox (ringOf e way)) way
        ∨ Told (w.ends e) (w.ends (!e)) way (w.inbox (ringOf e way))) := by
  have hside := hinv.sides e way
  have hnot : ¬ (w.ends e).Active way := by
    rintro ⟨-, hno⟩
    exact absurd (hreturned.symm.trans hno) (by simp)
  refine ⟨hside.still hnot, ?_⟩
  rintro rfl
  refine hside.parked ⟨(hinv.ends e).established (by rw [hloops]; simp), Or.inr ⟨?_, hreturned⟩⟩
  rw [hloops]
  rfl

/-- **A step within a task.** -/
theorem WorldInv.run (hinv : WorldInv holder cap reads more w)
    (hsend : ∀ e, ∀ c ∈ w.written e ++ more e, c.Sendable holder cap)
    (hrun : w.run holder e = some w') : WorldInv holder cap reads more w' := by
  cases World.run_step hrun with
  | triggers way rest completed hloops hreturned hnow =>
      obtain ⟨hstart, hparked⟩ := hinv.returned hloops hreturned
      refine hinv.turn hloops hstart completed hparked ((w.ends (!e)).pushToken way.other)
        rfl rfl rfl (fun _ => ConnectionImpl.tokens_le_pushToken _ _ _) ?_ ?_ ?_ rfl rfl
      · intro _ _
        rw [ConnectionImpl.pushToken_self]
        exact Nat.succ_pos _
      · exact setEnd_self _ _ _
      · rw [setEnd_not, setEnd_self]
  | around way rest completed hloops hreturned hnow =>
      obtain ⟨hstart, hparked⟩ := hinv.returned hloops hreturned
      refine hinv.turn hloops hstart completed hparked _ rfl rfl rfl (fun _ => Nat.le_refl _)
        ?_ ?_ ?_ rfl rfl
      · exact fun _ hyes => absurd hyes hnow
      · exact setEnd_self _ _ _
      · exact setEnd_not _ _ _
  | leaves way rest hloops hreturned hnil =>
      refine hinv.turn hloops ((hinv.sides e way).none hnil) false ?_ _ rfl rfl rfl
        (fun _ => Nat.le_refl _) ?_ ?_ (setEnd_not _ _ _) rfl rfl
      · intro _
        refine Or.inl fun x hx => ?_
        rw [hnil] at hx
        exact absurd hx (by simp)
      · intro hsome
        rw [hreturned] at hsome
        exact absurd hsome (by simp)
      · rw [setEnd_self]
        exact congrArg (fun r => { w.ends e with loops := rest, returned := r }) hreturned
  | returns way rest s' hloops hreturned hstep hstart =>
      exact hinv.call hsend hloops hreturned hstep (if_pos hstart).symm
  | onward way rest s' hloops hreturned hstep hstart =>
      have hnext := hinv.call hsend hloops hreturned hstep (if_neg hstart).symm
      have hsame : (w.setInbox (ringOf e way) s').setEnd e (w.ends e)
          = w.setInbox (ringOf e way) s' := by
        rw [World.setEnd]
        exact congrArg (fun ends => { w.setInbox (ringOf e way) s' with ends := ends })
          (Function.update_eq_self _ _)
      rw [hsame] at hnext
      exact hnext

-- ── Tasks ────────────────────────────────────────────────────────────────────

/-- **A task starts**, at an end that is in none: at most it has the side look again. -/
theorem WorldInv.task (hinv : WorldInv holder cap reads more w)
    (hloops : (w.ends e).loops = []) {reads' : Bool → List (Target α)}
    {more' : Bool → List (Content α)}
    (hstreams : ∀ e, ∃ put, StreamInv holder cap (w'.written e ++ more' e)
      ((w'.inbox e).later holder (reads' e) (more' e)) put)
    (hend : EndInv (w'.ends e)) (hpeer : w'.ends (!e) = w.ends (!e))
    (hrings : ∀ e', (w'.inbox e').ring = (w.inbox e').ring
      ∧ (w'.inbox e').history = (w.inbox e').history)
    (hothers : ∀ way, (w'.inbox (ringOf e way)).handling way.other
      = (w.inbox (ringOf e way)).handling way.other)
    (hpoints : ∀ way, ((w'.inbox (ringOf e way)).handling way).point
      = ((w.inbox (ringOf e way)).handling way).point)
    (hparked : ∀ way, (w'.ends e).Parked way → (w.ends e).state = .ESTABLISHED
      ∧ (w'.inbox (ringOf e way)).handling way = (w.inbox (ringOf e way)).handling way
      ∧ (w'.ends e).tokens way = (w.ends e).tokens way) :
    WorldInv holder cap reads' more' w' := by
  have hrole : ∀ e' way, (w'.inbox e').role way = (w.inbox e').role way := by
    intro e' way
    rw [Stream.role, Stream.role, (hrings e').1]
  have hown : ∀ way, SideInv cap (w'.ends e) (w'.ends (!e)) way (w'.inbox (ringOf e way)) := by
    intro way
    have hside := hinv.sides e way
    have hnot : ¬ (w.ends e).Active way := by
      rintro ⟨hno, -⟩
      rw [hloops] at hno
      exact absurd hno (by simp)
    refine .ofStart ((hpoints way).trans (hside.still hnot)) ?_
    intro hyes
    obtain ⟨hestablished, hhandling, htokens⟩ := hparked way hyes
    have hout : way ∉ (w.ends e).loops := by
      rw [hloops]
      exact List.not_mem_nil
    refine (hside.parked ⟨hestablished, Or.inl hout⟩).imp ?_ ?_
    · rw [Stuck, Stuck, hhandling, Stream.available, Stream.available, hrole, (hrings _).2]
      exact id
    · rw [Told, Told, Owing, Owing, htokens, hpeer, Stream.Owes, Stream.Owes, hothers, hrole]
      exact id
  have hcross : ∀ way, SideInv cap (w'.ends (!e)) (w'.ends (!(!e))) way
      (w'.inbox (ringOf (!e) way)) := by
    intro way
    have hside := hinv.sides (!e) way
    have hother := hothers way.other
    rw [other_other, ← ringOf_not] at hother
    rw [hpeer]
    refine hside.frame hother (hrole _ _) rfl rfl rfl ?_ (Or.inl (by rw [(hrings _).2]))
    rintro (htoken | ⟨hhead, -⟩)
    · exact Or.inl htoken
    · rw [Bool.not_not, hloops] at hhead
      exact absurd hhead (by simp)
  refine ⟨hstreams, ?_, ?_⟩
  · intro e'
    rcases Bool.eq_or_eq_not e' e with rfl | rfl
    · exact hend
    · rw [hpeer]
      exact hinv.ends (!e)
  · exact each_side e .reads (hown .reads) (hcross _) (hown _) (hcross _)

/-- An end in error stays so, when a state in error takes its place. -/
theorem World.setEnd_error {w : World α} {e e' : Bool} {c : ConnectionImpl}
    (hc : (w.ends e).error = true → c.error = true) (herror : (w.ends e').error = true) :
    ((w.setEnd e c).ends e').error = true := by
  rcases Bool.eq_or_eq_not e' e with rfl | rfl
  · rw [setEnd_self]
    exact hc herror
  · rw [setEnd_not]
    exact herror

/-- Starting a loop sets no error. -/
theorem processOperationsFromLoop_error (c : ConnectionImpl) (way : Way) :
    (c.processOperationsFromLoop way).error = c.error := by
  rw [ConnectionImpl.processOperationsFromLoop]
  split <;> rfl

/-- A step within a task, or a task. -/
theorem World.step_cases {event : Event α} (hstep : w.step holder e event = some w') :
    w.run holder e = some w' ∨ (w.ends e).loops = [] ∧ w.handle holder e event = some w' := by
  cases event with
  | run => exact Or.inl hstep
  | _ =>
      by_cases hloops : (w.ends e).loops = []
      · rw [World.step, if_pos hloops] at hstep
        · exact Or.inr ⟨hloops, hstep⟩
        · simp
      · rw [World.step, if_neg hloops] at hstep
        · exact absurd hstep (by simp)
        · simp

/-- A transaction clears no error. -/
theorem World.run_error (hrun : w.run holder e = some w') {e' : Bool}
    (herror : (w.ends e').error = true) : (w'.ends e').error = true := by
  cases World.run_step hrun with
  | triggers way rest completed hloops hreturned hnow =>
      refine setEnd_error ?_ (setEnd_error id herror)
      rw [setEnd_of_not]
      exact id
  | around way rest completed hloops hreturned hnow => exact setEnd_error id herror
  | leaves way rest hloops hreturned hnil => exact setEnd_error id herror
  | returns way rest s' hloops hreturned hstep hstart =>
      exact setEnd_error (w := w.setInbox _ s') id herror
  | onward way rest s' hloops hreturned hstep hstart => exact herror

/-- An event clears no error. -/
theorem World.handle_error {event : Event α} (hhandle : w.handle holder e event = some w')
    {e' : Bool} (herror : (w.ends e').error = true) : (w'.ends e').error = true := by
  cases event with
  | run => exact absurd hhandle (by simp [World.handle])
  | initImplFromLoop =>
      rw [World.handle] at hhandle
      split at hhandle
      · obtain rfl := Option.some.inj hhandle
        exact setEnd_error id herror
      · exact absurd hhandle (by simp)
  | read target =>
      obtain rfl := Option.some.inj hhandle
      split
      · exact herror
      · refine setEnd_error ?_ herror
        rw [processOperationsFromLoop_error]
        exact id
  | write content =>
      obtain rfl := Option.some.inj hhandle
      split
      · exact herror
      · refine setEnd_error ?_ herror
        rw [processOperationsFromLoop_error]
        exact id
  | handleEventOut =>
      rw [World.handle] at hhandle
      split at hhandle
      · obtain rfl := Option.some.inj hhandle
        exact setEnd_error id herror
      · exact absurd hhandle (by simp)
  | handleEventIn =>
      rw [World.handle] at hhandle
      split at hhandle
      · obtain rfl := Option.some.inj hhandle
        exact setEnd_error id herror
      · exact absurd hhandle (by simp)
  | reaction way =>
      rw [World.handle] at hhandle
      split at hhandle
      · exact absurd hhandle (by simp)
      · obtain rfl := Option.some.inj hhandle
        split
        · exact setEnd_error id herror
        · refine setEnd_error ?_ herror
          rw [processOperationsFromLoop_error]
          exact id
  | setError =>
      obtain rfl := Option.some.inj hhandle
      split
      · exact herror
      · exact setEnd_error (fun _ => rfl) herror

/-- An error is there to stay. -/
theorem World.step_error {event : Event α} (hstep : w.step holder e event = some w') {e' : Bool}
    (herror : (w.ends e').error = true) : (w'.ends e').error = true := by
  rcases World.step_cases hstep with hrun | ⟨-, hhandle⟩
  · exact World.run_error hrun herror
  · exact World.handle_error hhandle herror

/-- A world without an error comes from one without an error. -/
theorem World.step_unfailed {event : Event α} (hstep : w.step holder e event = some w')
    (herror : ∀ e, (w'.ends e).error = false) : ∀ e, (w.ends e).error = false := by
  intro e'
  cases hyes : (w.ends e').error with
  | false => rfl
  | true => exact absurd ((World.step_error hstep hyes).symm.trans (herror e')) (by simp)

/-- What a task of the peer's leaves alone: the calls, and the side of the other ring. -/
theorem WorldInv.idle (hinv : WorldInv holder cap reads more w) (hloops : (w.ends e).loops = [])
    {c : ConnectionImpl} (hend : EndInv c)
    (hparked : ∀ way, c.Parked way → (w.ends e).state = .ESTABLISHED
      ∧ c.tokens way = (w.ends e).tokens way) :
    WorldInv holder cap reads more (w.setEnd e c) := by
  refine hinv.task hloops hinv.streams ?_ (setEnd_not _ _ _) (fun _ => ⟨rfl, rfl⟩)
    (fun _ => rfl) (fun _ => rfl) ?_
  · rw [setEnd_self]
    exact hend
  · intro way hyes
    rw [setEnd_self] at hyes ⊢
    obtain ⟨hestablished, htokens⟩ := hparked way hyes
    exact ⟨hestablished, rfl, htokens⟩

/-- An end that is not established runs no loop. -/
theorem EndInv.idle {c : ConnectionImpl} (hloops : c.loops = []) (hreturned : c.returned = none) :
    EndInv c := by
  refine ⟨fun hno => absurd hloops hno, ?_, fun _ => hreturned⟩
  rw [hloops]
  exact List.nodup_nil

/-- Starting the loops of a way keeps the invariant of the end. -/
theorem EndInv.processOperationsFromLoop {c : ConnectionImpl} (h : EndInv c)
    (hloops : c.loops = []) (way : Way) : EndInv (c.processOperationsFromLoop way) := by
  rw [ConnectionImpl.processOperationsFromLoop]
  split
  · rename_i hestablished
    exact ⟨fun _ => hestablished, List.nodup_singleton _, fun _ => h.returned hloops⟩
  · exact h

/-- The side that a task has look is not parked. -/
theorem processOperationsFromLoop_parked {c : ConnectionImpl} (h : EndInv c)
    (hloops : c.loops = []) {way way' : Way}
    (hparked : (c.processOperationsFromLoop way).Parked way') :
    c.state = .ESTABLISHED ∧ way' ≠ way := by
  rw [ConnectionImpl.processOperationsFromLoop] at hparked
  split at hparked
  · rename_i hestablished
    refine ⟨hestablished, ?_⟩
    rintro rfl
    rcases hparked.2 with hout | ⟨-, hfalse⟩
    · exact hout (List.mem_singleton_self _)
    · exact absurd ((h.returned hloops).symm.trans hfalse) (by simp)
  · rename_i hno
    exact absurd hparked.1 hno

/-- Running a reaction keeps the invariant. -/
theorem WorldInv.reaction (hinv : WorldInv holder cap reads more w)
    (hloops : (w.ends e).loops = []) (way : Way) :
    WorldInv holder cap reads more
      (w.setEnd e (((w.ends e).popToken way).processOperationsFromLoop way)) := by
  have hend : EndInv ((w.ends e).popToken way) :=
    .idle hloops ((hinv.ends e).returned hloops)
  refine hinv.idle hloops (hend.processOperationsFromLoop hloops way) ?_
  intro way' hparked
  obtain ⟨hestablished, hne⟩ := processOperationsFromLoop_parked hend hloops hparked
  refine ⟨hestablished, ?_⟩
  rw [ConnectionImpl.processOperationsFromLoop]
  split <;> exact ConnectionImpl.popToken_ne _ hne

/-- Starting a loop takes no token. -/
theorem processOperationsFromLoop_tokens (c : ConnectionImpl) (way : Way) :
    (c.processOperationsFromLoop way).tokens = c.tokens := by
  rw [ConnectionImpl.processOperationsFromLoop]
  split <;> rfl

/-- A read that is issued now instead of later. -/
theorem WorldInv.read (target : Target α)
    (hinv : WorldInv holder cap (Function.update reads e (target :: reads e)) more w)
    (hloops : (w.ends e).loops = []) :
    WorldInv holder cap reads more (w.readImplFromLoop e target) := by
  have hend := hinv.ends e
  have hends : (w.readImplFromLoop e target).ends e
      = (w.ends e).processOperationsFromLoop .reads := setEnd_self _ _ _
  have hother : ∀ e', e' ≠ e → (w.readImplFromLoop e target).inbox e' = w.inbox e' :=
    fun e' he => Function.update_of_ne he _ _
  have hself : (w.readImplFromLoop e target).inbox e = { w.inbox e with
      reader := { (w.inbox e).reader with
        ops := (w.inbox e).reader.ops ++ [.make target] } } := Function.update_self _ _ _
  refine hinv.task hloops ?_ ?_ (setEnd_not _ _ _) ?_ ?_ ?_ ?_
  · intro e'
    obtain ⟨put, hstream⟩ := hinv.streams e'
    refine ⟨put, ?_⟩
    by_cases he : e' = e
    · rw [he] at hstream ⊢
      rw [Function.update_self] at hstream
      rw [hself]
      have hlater : Stream.later holder (reads e) (more e) { w.inbox e with
          reader := { (w.inbox e).reader with
            ops := (w.inbox e).reader.ops ++ [.make target] } }
          = (w.inbox e).later holder (target :: reads e) (more e) := by
        rw [Stream.later, Stream.later]
        dsimp only
        rw [List.append_assoc]
        rfl
      rw [hlater]
      exact hstream
    · rw [Function.update_of_ne he] at hstream
      rw [hother e' he]
      exact hstream
  · rw [hends]
    exact hend.processOperationsFromLoop hloops _
  · intro e'
    by_cases he : e' = e
    · rw [he, hself]
      exact ⟨rfl, rfl⟩
    · rw [hother e' he]
      exact ⟨rfl, rfl⟩
  · intro way
    cases way with
    | reads =>
        rw [show ringOf e .reads = e from rfl, hself]
        rfl
    | writes => rw [hother _ (by cases e <;> decide)]
  · intro way
    cases way with
    | reads =>
        rw [show ringOf e .reads = e from rfl, hself]
        rfl
    | writes => rw [hother _ (by cases e <;> decide)]
  · intro way hparked
    rw [hends] at hparked ⊢
    obtain ⟨hestablished, hne⟩ := processOperationsFromLoop_parked hend hloops hparked
    rw [processOperationsFromLoop_tokens]
    refine ⟨hestablished, ?_, rfl⟩
    cases way with
    | reads => exact absurd rfl hne
    | writes => rw [hother _ (by cases e <;> decide)]

/-- A write that is issued now instead of later. -/
theorem WorldInv.write (content : Content α)
    (hinv : WorldInv holder cap reads (Function.update more (!e) (content :: more (!e))) w)
    (hloops : (w.ends e).loops = []) :
    WorldInv holder cap reads more (w.writeImplFromLoop holder e content) := by
  have hend := hinv.ends e
  have hends : (w.writeImplFromLoop holder e content).ends e
      = (w.ends e).processOperationsFromLoop .writes := setEnd_self _ _ _
  have hother : ∀ e', e' ≠ (!e) → (w.writeImplFromLoop holder e content).inbox e' = w.inbox e'
      ∧ (w.writeImplFromLoop holder e content).written e' = w.written e' :=
    fun e' he => ⟨Function.update_of_ne he _ _, Function.update_of_ne he _ _⟩
  have hself : (w.writeImplFromLoop holder e content).inbox (!e) = { w.inbox (!e) with
      writer := { (w.inbox (!e)).writer with
        ops := (w.inbox (!e)).writer.ops ++ [.make holder content] } } := Function.update_self _ _ _
  have hwritten : (w.writeImplFromLoop holder e content).written (!e)
      = w.written (!e) ++ [content] := Function.update_self _ _ _
  refine hinv.task hloops ?_ ?_ (setEnd_not _ _ _) ?_ ?_ ?_ ?_
  · intro e'
    obtain ⟨put, hstream⟩ := hinv.streams e'
    refine ⟨put, ?_⟩
    by_cases he : e' = (!e)
    · rw [he] at hstream ⊢
      rw [Function.update_self] at hstream
      rw [hself, hwritten, List.append_assoc]
      have hlater : Stream.later holder (reads (!e)) (more (!e)) { w.inbox (!e) with
          writer := { (w.inbox (!e)).writer with
            ops := (w.inbox (!e)).writer.ops ++ [.make holder content] } }
          = (w.inbox (!e)).later holder (reads (!e)) (content :: more (!e)) := by
        rw [Stream.later, Stream.later]
        dsimp only
        rw [List.append_assoc]
        rfl
      rw [hlater]
      exact hstream
    · rw [Function.update_of_ne he] at hstream
      rw [(hother e' he).1, (hother e' he).2]
      exact hstream
  · rw [hends]
    exact hend.processOperationsFromLoop hloops _
  · intro e'
    by_cases he : e' = (!e)
    · rw [he, hself]
      exact ⟨rfl, rfl⟩
    · rw [(hother e' he).1]
      exact ⟨rfl, rfl⟩
  · intro way
    cases way with
    | reads => rw [(hother _ (by cases e <;> decide)).1]
    | writes =>
        rw [show ringOf e .writes = (!e) from rfl, hself]
        rfl
  · intro way
    cases way with
    | reads => rw [(hother _ (by cases e <;> decide)).1]
    | writes =>
        rw [show ringOf e .writes = (!e) from rfl, hself]
        rfl
  · intro way hparked
    rw [hends] at hparked ⊢
    obtain ⟨hestablished, hne⟩ := processOperationsFromLoop_parked hend hloops hparked
    rw [processOperationsFromLoop_tokens]
    refine ⟨hestablished, ?_, rfl⟩
    cases way with
    | reads => rw [(hother _ (by cases e <;> decide)).1]
    | writes => exact absurd rfl hne

-- ── Every run ────────────────────────────────────────────────────────────────

/-- What has been issued and what is still to be: every write can be sent on the ring, and
    every read is of the kind of the write that it meets. -/
structure Promised (holder : AbstractNopHolder α) (cap : Nat) (reads : Bool → List (Target α))
    (more : Bool → List (Content α)) (w : World α) : Prop where
  sendable : ∀ e, ∀ c ∈ w.written e ++ more e, c.Sendable holder cap
  fits : ∀ e, ∀ p ∈ (w.asked e ++ reads e).zip (w.written e ++ more e), p.1.Fits p.2

/-- A read that is issued was still to be. -/
theorem Promised.read {target : Target α}
    (h : Promised holder cap reads more (w.readImplFromLoop e target)) :
    Promised holder cap (Function.update reads e (target :: reads e)) more w := by
  refine ⟨h.sendable, ?_⟩
  intro e'
  have hfits := h.fits e'
  have hasked : (w.readImplFromLoop e target).asked e' ++ reads e'
      = w.asked e' ++ Function.update reads e (target :: reads e) e' := by
    show Function.update w.asked e (w.asked e ++ [target]) e' ++ reads e' = _
    by_cases he : e' = e
    · rw [he, Function.update_self, Function.update_self, List.append_assoc]
      rfl
    · rw [Function.update_of_ne he, Function.update_of_ne he]
  rw [hasked] at hfits
  exact hfits

/-- So was a write. -/
theorem Promised.write {content : Content α}
    (h : Promised holder cap reads more (w.writeImplFromLoop holder e content)) :
    Promised holder cap reads (Function.update more (!e) (content :: more (!e))) w := by
  have hwritten : ∀ e', (w.writeImplFromLoop holder e content).written e' ++ more e'
      = w.written e' ++ Function.update more (!e) (content :: more (!e)) e' := by
    intro e'
    show Function.update w.written (!e) (w.written (!e) ++ [content]) e' ++ more e' = _
    by_cases he : e' = (!e)
    · rw [he, Function.update_self, Function.update_self, List.append_assoc]
      rfl
    · rw [Function.update_of_ne he, Function.update_of_ne he]
  constructor
  · intro e'
    rw [← hwritten]
    exact h.sendable e'
  · intro e'
    rw [← hwritten]
    exact h.fits e'

/-- A step within a task issues nothing. -/
theorem World.run_issued (hrun : w.run holder e = some w') :
    w'.asked = w.asked ∧ w'.written = w.written := by
  cases World.run_step hrun <;> exact ⟨rfl, rfl⟩

/-- **A task**, at an end that has not failed. -/
theorem WorldInv.handle {event : Event α} (hhandle : w.handle holder e event = some w')
    (hloops : (w.ends e).loops = []) (herror : (w'.ends e).error = false)
    (hbefore : ∀ reads more, Promised holder cap reads more w → WorldInv holder cap reads more w)
    (hpromised : Promised holder cap reads more w') : WorldInv holder cap reads more w' := by
  have hsame : (w.ends e).error = false := by
    cases hyes : (w.ends e).error with
    | false => rfl
    | true => exact absurd ((World.handle_error hhandle hyes).symm.trans herror) (by simp)
  cases event with
  | run => exact absurd hhandle (by simp [World.handle])
  | initImplFromLoop =>
      rw [World.handle] at hhandle
      split at hhandle
      · obtain rfl := Option.some.inj hhandle
        have hinv := hbefore reads more ⟨hpromised.sendable, hpromised.fits⟩
        refine hinv.idle hloops (.idle hloops ((hinv.ends e).returned hloops)) ?_
        exact fun way hparked => absurd hparked.1 (by simp)
      · exact absurd hhandle (by simp)
  | read target =>
      obtain rfl := Option.some.inj hhandle
      rw [if_neg (by rw [hsame]; simp)] at hpromised ⊢
      exact (hbefore _ _ hpromised.read).read target hloops
  | write content =>
      obtain rfl := Option.some.inj hhandle
      rw [if_neg (by rw [hsame]; simp)] at hpromised ⊢
      exact (hbefore _ _ hpromised.write).write content hloops
  | handleEventOut =>
      rw [World.handle] at hhandle
      split at hhandle
      · obtain rfl := Option.some.inj hhandle
        have hinv := hbefore reads more ⟨hpromised.sendable, hpromised.fits⟩
        refine hinv.idle hloops (.idle hloops ((hinv.ends e).returned hloops)) ?_
        exact fun way hparked => absurd hparked.1 (by simp)
      · exact absurd hhandle (by simp)
  | handleEventIn =>
      rw [World.handle] at hhandle
      split at hhandle
      · obtain rfl := Option.some.inj hhandle
        have hinv := hbefore reads more ⟨hpromised.sendable, hpromised.fits⟩
        have hreturned := (hinv.ends e).returned hloops
        refine hinv.idle hloops ⟨fun _ => rfl, ?_, fun _ => hreturned⟩ ?_
        · show [Way.writes, Way.reads].Nodup
          decide
        · -- both sides are about to look
          rintro way ⟨-, hout | ⟨-, hfalse⟩⟩
          · cases way with
            | reads => exact absurd (show Way.reads ∈ [Way.writes, .reads] by simp) hout
            | writes => exact absurd (show Way.writes ∈ [Way.writes, .reads] by simp) hout
          · exact absurd (hreturned.symm.trans hfalse) (by simp)
      · exact absurd hhandle (by simp)
  | reaction way =>
      rw [World.handle] at hhandle
      split at hhandle
      · exact absurd hhandle (by simp)
      · obtain rfl := Option.some.inj hhandle
        have hinv := hbefore reads more ⟨hpromised.sendable, hpromised.fits⟩
        have hpopped : ((w.ends e).popToken way).error = false := hsame
        rw [if_neg (by rw [hpopped]; simp)]
        exact hinv.reaction hloops way
  | setError =>
      obtain rfl := Option.some.inj hhandle
      rw [if_neg (by rw [hsame]; simp)] at herror
      exact absurd ((congrArg _ (setEnd_self _ _ _)).symm.trans herror) (by simp)

/-- The ring buffers have the size that the code gives them. -/
theorem sized_kBufferSize : Sized (RingBufferHeader.make 2 kBufferSize) kBufferSize.toNat := by
  have haccepted : (RingBufferHeader.make 2 kBufferSize).Accepted :=
    ⟨by decide +kernel, by decide +kernel, by decide +kernel⟩
  obtain ⟨cap, -, hsized⟩ := sized_make haccepted
  have hsize : nextPow2 kBufferSize = UInt64.ofNat cap := hsized.size
  have hsame : nextPow2 kBufferSize = kBufferSize := by decide +kernel
  have hcap : kBufferSize.toNat = cap := by
    rw [← hsame, hsize, toNat_ofNat_small hsized.small]
  rw [hcap]
  exact hsized

/-- A new world satisfies the invariant. -/
theorem World.make_inv (data : Bool → Nat → UInt8)
    (hpromised : Promised holder kBufferSize.toNat reads more (World.make holder data)) :
    WorldInv holder kBufferSize.toNat reads more (World.make holder data) := by
  refine ⟨?_, fun _ => .idle rfl rfl, ?_⟩
  · intro e
    exact ⟨[], streamInv_make (data e) sized_kBufferSize (hpromised.fits e)⟩
  · intro e way
    refine .ofStart (by cases way <;> rfl) ?_
    exact fun hparked => absurd hparked.1 (by simp [World.make])

/-- **Every run** in which neither end fails. -/
theorem reachable_worldInv (hw : World.Reachable holder w)
    (herror : ∀ e, (w.ends e).error = false) :
    ∀ reads more, Promised holder kBufferSize.toNat reads more w →
      WorldInv holder kBufferSize.toNat reads more w := by
  induction hw with
  | make data => exact fun reads more => World.make_inv data
  | step e event _ hstep ih =>
      have hbefore := ih (World.step_unfailed hstep herror)
      intro reads more hpromised
      rcases World.step_cases hstep with hrun | ⟨hloops, hhandle⟩
      · obtain ⟨hasked, hwritten⟩ := World.run_issued hrun
        obtain ⟨hsendable, hfits⟩ := hpromised
        rw [hasked, hwritten] at hfits
        rw [hwritten] at hsendable
        exact (hbefore reads more ⟨hsendable, hfits⟩).run hsendable hrun
      · exact WorldInv.handle hhandle hloops (herror e) hbefore hpromised

/-- Both ends are established, neither is in a task, and no token is under way. -/
structure Quiet (w : World α) : Prop where
  established : ∀ e, (w.ends e).state = .ESTABLISHED
  error : ∀ e, (w.ends e).error = false
  loops : ∀ e, (w.ends e).loops = []
  tokens : ∀ e way, (w.ends e).tokens way = 0

/-- In a quiet world what is left of a ring cannot move. -/
theorem Quiet.stuck {cap : Nat} (hquiet : Quiet w) (hinv : WorldInv holder cap reads more w)
    (e : Bool) (way : Way) : Stuck cap (w.inbox (ringOf e way)) way := by
  have hout : way ∉ (w.ends e).loops := by
    rw [hquiet.loops]
    exact List.not_mem_nil
  rcases (hinv.sides e way).parked ⟨hquiet.established e, Or.inl hout⟩ with
    hstuck | htoken | ⟨hhead, -⟩
  · exact hstuck
  · rw [hquiet.tokens] at htoken
    exact absurd htoken (Nat.lt_irrefl 0)
  · rw [hquiet.loops] at hhead
    exact absurd hhead (by simp)

/-- With no more calls to come, the promises are about those made so far. -/
theorem Promised.nothing (hsend : ∀ e, ∀ c ∈ w.written e, c.Sendable holder cap)
    (hfit : ∀ e, ∀ p ∈ (w.asked e).zip (w.written e), p.1.Fits p.2) :
    Promised holder cap (fun _ => []) (fun _ => []) w := by
  constructor
  · intro e
    rw [List.append_nil]
    exact hsend e
  · intro e
    rw [List.append_nil, List.append_nil]
    exact hfit e

/-- **No wake-up is lost.**  When nothing is under way, the front operation of each end on
    each ring finds less than it wants: a length that is not all there, or has no room,
    an object likewise, and of a buffer nothing at all. -/
theorem no_wake_up_lost (hw : World.Reachable holder w) (hquiet : Quiet w)
    (hsend : ∀ e, ∀ c ∈ w.written e, c.Sendable holder kBufferSize.toNat)
    (hfit : ∀ e, ∀ p ∈ (w.asked e).zip (w.written e), p.1.Fits p.2) :
    ∀ e way, ∀ x ∈ ((w.inbox (ringOf e way)).handling way).extents.head?,
      (w.inbox (ringOf e way)).available kBufferSize.toNat way < x.wanted :=
  hquiet.stuck (reachable_worldInv hw hquiet.error _ _ (.nothing hsend hfit))

end Both

-- ── An exchange ──────────────────────────────────────────────────────────────

/-- This many steps of one end. -/
def runs (e : Bool) (n : Nat) : List (Bool × Event UInt8) := List.replicate n (e, .run)

/-- Both ends get established, and a read waits at one. -/
def sampleWaiting : List (Bool × Event UInt8) :=
  List.append
    [(false, .initImplFromLoop), (true, .initImplFromLoop), (false, .handleEventOut),
      (true, .handleEventOut), (true, .handleEventIn), (true, .run), (true, .run),
      (false, .handleEventIn), (false, .run), (false, .run), (true, .read .auto)]
    (runs true 6)

/-- The read gets a write; another write comes before its read; a read waits again; and there
    is a write that nobody reads. -/
def sampleEvents : List (Bool × Event UInt8) :=
  List.flatten
    [sampleWaiting, [(false, .write (.buffer [1, 2, 3]))], runs false 11,
      [(true, .reaction .reads)], runs true 11, [(false, .reaction .writes), (false, .run)],
      [(true, .write (.buffer [9]))], runs true 11, [(false, .reaction .reads), (false, .run)],
      [(false, .read .auto)], runs false 11, [(true, .reaction .writes), (true, .run)],
      [(true, .read .auto)], runs true 6, [(true, .write (.buffer [4, 5]))], runs true 11,
      [(false, .reaction .reads), (false, .run)]]

/-- Two writes one way and two the other, of one to three bytes. -/
def sampleWritten : Bool → List (Content UInt8)
  | true => [.buffer [1, 2, 3]]
  | false => [.buffer [9], .buffer [4, 5]]

/-- The reads that these writes meet. -/
def sampleAsked : Bool → List (Target UInt8)
  | true => [.auto, .auto]
  | false => [.auto]

/-- Nothing is under way after these reads and writes, and the inbox of one end is waited on. -/
def Exchanged (w : World UInt8) : Prop :=
  (∀ e, (w.ends e).state = .ESTABLISHED ∧ (w.ends e).error = false ∧ (w.ends e).loops = []
      ∧ (w.ends e).tokens .reads = 0 ∧ (w.ends e).tokens .writes = 0)
    ∧ (∀ e, w.written e = sampleWritten e) ∧ (∀ e, w.asked e = sampleAsked e)
    ∧ ((w.inbox true).handling .reads).extents.head?.map Extent.wanted = some 4

instance (w : World UInt8) : Decidable (Exchanged w) :=
  inferInstanceAs (Decidable ((∀ e, (w.ends e).state = .ESTABLISHED ∧ (w.ends e).error = false
      ∧ (w.ends e).loops = [] ∧ (w.ends e).tokens .reads = 0 ∧ (w.ends e).tokens .writes = 0)
    ∧ (∀ e, w.written e = sampleWritten e) ∧ (∀ e, w.asked e = sampleAsked e)
    ∧ ((w.inbox true).handling .reads).extents.head?.map Extent.wanted = some 4))

/-- A run of these calls in which everything arrives. -/
theorem sample_exchanged :
    ((World.make sampleHolder (fun _ _ => 0)).trace sampleHolder sampleEvents).any
      (fun w => decide (Exchanged w)) = true := by
  decide +kernel

/-- The world after the exchange. -/
theorem exists_exchanged :
    ∃ w, World.Reachable sampleHolder w ∧ Quiet w ∧ Exchanged w := by
  obtain ⟨w, htrace, hw⟩ := (Option.any_eq_true _ _).mp sample_exchanged
  have hexchanged : Exchanged w := of_decide_eq_true hw
  refine ⟨w, (World.Reachable.make (fun _ _ => 0)).trace sampleEvents htrace, ?_, hexchanged⟩
  have hends := hexchanged.1
  refine ⟨fun e => (hends e).1, fun e => (hends e).2.1, fun e => (hends e).2.2.1, ?_⟩
  intro e way
  cases way with
  | reads => exact (hends e).2.2.2.1
  | writes => exact (hends e).2.2.2.2

/-- These writes can be sent. -/
theorem sampleWritten_sendable (e : Bool) :
    ∀ c ∈ sampleWritten e, c.Sendable sampleHolder kBufferSize.toNat := by
  have hshort : ∀ c ∈ sampleWritten e, ∃ bytes, c = .buffer bytes ∧ bytes.length < 2 ^ 32 := by
    intro c hc
    cases e with
    | true =>
        obtain rfl := List.mem_singleton.mp hc
        exact ⟨_, rfl, by decide⟩
    | false =>
        rcases List.mem_cons.mp hc with rfl | hlast
        · exact ⟨_, rfl, by decide⟩
        · obtain rfl := List.mem_singleton.mp hlast
          exact ⟨_, rfl, by decide⟩
  intro c hc
  obtain ⟨bytes, rfl, hlength⟩ := hshort c hc
  exact hlength

/-- The reads fit the writes. -/
theorem sampleAsked_fits (e : Bool) : ∀ p ∈ (sampleAsked e).zip (sampleWritten e),
    p.1.Fits p.2 := by
  intro p hp
  cases e <;>
    · obtain rfl := List.mem_singleton.mp hp
      trivial

/-- A read that got nothing yet, on a ring that has been written, waits for a length. -/
theorem no_wake_up_lost_sample :
    ∃ w : World UInt8, w.written true = [.buffer [1, 2, 3]] ∧ w.asked true = [.auto, .auto]
      ∧ (w.inbox true).available kBufferSize.toNat .reads < 4 := by
  obtain ⟨w, hreachable, hquiet, -, hwritten, hasked, hwanted⟩ := exists_exchanged
  refine ⟨w, hwritten true, hasked true, ?_⟩
  obtain ⟨x, hx, hfour⟩ := Option.map_eq_some_iff.mp hwanted
  rw [← hfour]
  refine no_wake_up_lost hreachable hquiet ?_ ?_ true .reads x hx
  · intro e
    rw [hwritten]
    exact sampleWritten_sendable e
  · intro e
    rw [hasked, hwritten]
    exact sampleAsked_fits e

end TpShm
