import Mathlib.Tactic.Common
import Tensorpipe.HistoryProofs

/-! # The core context — pipes and listeners, and closing them all

    A pipe or a listener enrolls with its context when it is initialised on the loop, and
    unenrolls when it gets an error.  When the context is closed it closes all that is enrolled,
    and lets nothing enroll any more.

    The idea of the proofs: a task that concerns an object comes after the task that initialises
    it (`Queued`), so that an error finds the object enrolled; and each of the operations keeps
    what the two maps have to be (`Exact`), also in the middle of the closing. -/

namespace TpCore

open TpStateMachine

-- ── The model ────────────────────────────────────────────────────────────────

/-- The two kinds of objects that a context enrols. -/
inductive Kind where
  | listener
  | pipe
deriving DecidableEq, Repr

/-- The errors that close a listener, a pipe or a context, and those from below. -/
inductive Error where
  | ListenerClosedError
  | PipeClosedError
  | ContextClosedError
  | other (code : Nat)
deriving DecidableEq, Repr

/-- The error that a call of `close` sets. -/
def Kind.closedError : Kind → Error
  | .listener => .ListenerClosedError
  | .pipe => .PipeClosedError

/-- A `ListenerImpl` or a `PipeImpl`.  `initialized` is whether `initFromLoop` has run; `enrolls`
    and `unenrolls` count the calls to the context. -/
structure Object where
  kind : Kind
  initialized : Bool := false
  error : Option Error := none
  enrolls : Nat := 0
  unenrolls : Nat := 0
deriving DecidableEq, Repr

/-- The tasks that are deferred to the loop.  An object is known by its address. -/
inductive Task where
  | init (a : Nat)
  | close (a : Nat)
  | callback (a : Nat) (error : Option Error)
  | hello (a : Nat) (error : Option Error) (spontaneous : Bool)
  | closeContext
deriving DecidableEq, Repr

/-- The object that a task concerns. -/
def Task.about : Task → Option Nat
  | .init a | .close a | .callback a _ | .hello a _ _ => some a
  | .closeContext => none

/-- `listeners` and `pipes` are the two maps; `objects` are all that were ever created, and
    `tasks` the tasks that were deferred and have not been run. -/
structure ContextImpl where
  error : Option Error := none
  listeners : List Nat := []
  pipes : List Nat := []
  objects : List Object := []
  tasks : List Task := []
deriving DecidableEq, Repr

namespace ContextImpl

/-- The map for objects of a kind. -/
def enrolled (c : ContextImpl) : Kind → List Nat
  | .listener => c.listeners
  | .pipe => c.pipes

/-- Replaces the enrolled objects of a kind. -/
def setEnrolled (kind : Kind) (addresses : List Nat) (c : ContextImpl) : ContextImpl :=
  match kind with
  | .listener => { c with listeners := addresses }
  | .pipe => { c with pipes := addresses }

/-- Replaces an object. -/
def setObject (a : Nat) (o : Object) (c : ContextImpl) : ContextImpl :=
  { c with objects := c.objects.set a o }

/-- The two overloads of `enroll`.  In all that follows `none` stands for a failed assertion, or
    for an object that does not exist. -/
def enroll (a : Nat) (c : ContextImpl) : Option ContextImpl :=
  c.objects[a]?.bind (fun o =>
    if a ∈ c.enrolled o.kind then none
    else some ((c.setObject a { o with enrolls := o.enrolls + 1 }).setEnrolled o.kind
      (a :: c.enrolled o.kind)))

/-- The two overloads of `unenroll`. -/
def unenroll (a : Nat) (c : ContextImpl) : Option ContextImpl :=
  c.objects[a]?.bind (fun o =>
    if a ∈ c.enrolled o.kind then
      some ((c.setObject a { o with unenrolls := o.unenrolls + 1 }).setEnrolled o.kind
        ((c.enrolled o.kind).filter (fun b => b ≠ a)))
    else none)

-- ── Pipes and listeners ──────────────────────────────────────────────────────

/-- Don't overwrite an error that's already set.  All else that `handleError` does, apart from
    having the object unenrolled, defers to the loop. -/
def setError (error : Option Error) (a : Nat) (c : ContextImpl) : Option ContextImpl :=
  c.objects[a]?.bind (fun o =>
    if o.error.isSome ∨ error.isNone then some c
    else (c.setObject a { o with error }).unenroll a)

/-- A call of `close` on an object. -/
def closeFromLoop (a : Nat) (c : ContextImpl) : Option ContextImpl :=
  c.objects[a]?.bind (fun o => c.setError (some o.kind.closedError) a)

/-- The initialisation of an object, which a closed context refuses to enrol. -/
def initFromLoop (a : Nat) (c : ContextImpl) : Option ContextImpl :=
  c.objects[a]?.bind (fun o =>
    let o := { o with initialized := true }
    -- the error is set without calling setError, as the object was not enrolled
    if c.error.isSome then some (c.setObject a { o with error := some o.kind.closedError })
    else (c.setObject a o).enroll a)

/-- The callback of `onAccept`, with `onConnectionHelloRead`: a spontaneous connection becomes a
    pipe, which is initialised inline. -/
def helloFromLoop (a : Nat) (error : Option Error) (spontaneous : Bool) (c : ContextImpl) :
    Option ContextImpl :=
  (c.setError error a).bind (fun c =>
    c.objects[a]?.bind (fun o =>
      if o.error.isSome then some c
      else if spontaneous then
        initFromLoop c.objects.length { c with objects := c.objects ++ [{ kind := .pipe }] }
      else some c))

-- ── The context ──────────────────────────────────────────────────────────────

/-- The loop over the enrolled objects of a kind. -/
def closeAll : List Nat → ContextImpl → Option ContextImpl
  | [], c => some c
  | a :: rest, c => (c.closeFromLoop a).bind (closeAll rest)

/-- It goes over copies of the maps, as the objects unenroll themselves inline. -/
def handleError (c : ContextImpl) : Option ContextImpl :=
  let listenersCopy := c.listeners
  let pipesCopy := c.pipes
  (closeAll listenersCopy c).bind (closeAll pipesCopy)

/-- A call of `close` on the context. -/
def closeContextFromLoop (c : ContextImpl) : Option ContextImpl :=
  if c.error.isSome then some c else { c with error := some .ContextClosedError }.handleError

/-- One task of the context's loop. -/
def run (c : ContextImpl) : Task → Option ContextImpl
  | .init a => c.initFromLoop a
  | .close a => c.closeFromLoop a
  | .callback a error => c.setError error a
  | .hello a error spontaneous => c.helloFromLoop a error spontaneous
  | .closeContext => c.closeContextFromLoop

/-- What happens between two tasks, and the next task.  A new object is only known to others
    once its initialisation was deferred. -/
inductive Step where
  | create (kind : Kind)
  | defer (task : Task)
  | rehash (listeners pipes : List Nat)
  | next
deriving DecidableEq, Repr

/-- An object can be closed at any time.  Its callbacks are registered when it is initialised,
    and so are those of a listener that read what a new connection says first.  The order of the
    maps is arbitrary. -/
def enabled (c : ContextImpl) : Step → Prop
  | .create _ => True
  | .defer (.init _) => False
  | .defer (.close a) => a < c.objects.length
  | .defer (.callback a _) => ∃ o, c.objects[a]? = some o ∧ o.initialized = true
  | .defer (.hello a _ _) =>
      ∃ o, c.objects[a]? = some o ∧ o.initialized = true ∧ o.kind = .listener
  | .defer .closeContext => True
  | .rehash listeners pipes => listeners.Perm c.listeners ∧ pipes.Perm c.pipes
  | .next => c.tasks ≠ []

/-- A call of the user or of a transport, which adds a task, or the next task. -/
def step (c : ContextImpl) : Step → Option ContextImpl
  | .create kind =>
      some { c with
        objects := c.objects ++ [{ kind }]
        tasks := c.tasks ++ [.init c.objects.length] }
  | .defer task => some { c with tasks := c.tasks ++ [task] }
  | .rehash listeners pipes => some { c with listeners, pipes }
  | .next =>
      match c.tasks with
      | [] => none
      | task :: rest => { c with tasks := rest }.run task

/-- The runs from a state on. -/
inductive Run (c : ContextImpl) : ContextImpl → Prop where
  | refl : Run c c
  | step {c' c'' : ContextImpl} (h : Run c c') (s : Step) (henabled : c'.enabled s)
      (hstep : c'.step s = some c'') : Run c c''

/-- The runs of a context that has just been made. -/
def Reachable (c : ContextImpl) : Prop := Run {} c

end ContextImpl

-- ── What the maps have to be ─────────────────────────────────────────────────

/-- Which calls an object has made to the context. -/
structure Object.Sound (o : Object) : Prop where
  fresh : o.initialized = false → o.error = none ∧ o.enrolls = 0 ∧ o.unenrolls = 0
  live : o.initialized = true → o.error = none → o.enrolls = 1 ∧ o.unenrolls = 0
  failed : o.error ≠ none → o.enrolls = o.unenrolls ∧ o.enrolls ≤ 1

namespace ContextImpl

/-- An object that has been initialised and has no error. -/
def Live (c : ContextImpl) (kind : Kind) (a : Nat) : Prop :=
  ∃ o, c.objects[a]? = some o ∧ o.kind = kind ∧ o.initialized = true ∧ o.error = none

/-- The enrolled objects are exactly those that live, and every object is sound. -/
structure Exact (c : ContextImpl) : Prop where
  enrolled : ∀ kind a, a ∈ c.enrolled kind ↔ c.Live kind a
  sound : ∀ (a : Nat) (o : Object), c.objects[a]? = some o → o.Sound

variable {c c' : ContextImpl} {a : Nat} {o o' : Object}

/-- Only the objects of the kind are replaced. -/
@[simp] theorem enrolled_setEnrolled (kind kind' : Kind) (addresses : List Nat) :
    (c.setEnrolled kind addresses).enrolled kind'
      = if kind' = kind then addresses else c.enrolled kind' := by
  cases kind <;> cases kind' <;> rfl

/-- Enrolling changes no object. -/
@[simp] theorem objects_setEnrolled (kind : Kind) (addresses : List Nat) :
    (c.setEnrolled kind addresses).objects = c.objects := by
  cases kind <;> rfl

/-- Enrolling sets no error. -/
@[simp] theorem error_setEnrolled (kind : Kind) (addresses : List Nat) :
    (c.setEnrolled kind addresses).error = c.error := by
  cases kind <;> rfl

/-- Enrolling adds no task. -/
@[simp] theorem tasks_setEnrolled (kind : Kind) (addresses : List Nat) :
    (c.setEnrolled kind addresses).tasks = c.tasks := by
  cases kind <;> rfl

/-- Enrolling those that are enrolled. -/
theorem setEnrolled_enrolled (kind : Kind) : c.setEnrolled kind (c.enrolled kind) = c := by
  cases kind <;> rfl

/-- Changing an object enrols none. -/
@[simp] theorem enrolled_setObject (kind : Kind) :
    (c.setObject a o).enrolled kind = c.enrolled kind := by
  cases kind <;> rfl

/-- The object at an address, after one was changed. -/
theorem getElem_set {objects : List Object} {b : Nat} (ho : objects[a]? = some o) :
    (objects.set a o')[b]? = if b = a then some o' else objects[b]? := by
  have ha : a < objects.length := (List.getElem?_eq_some_iff.mp ho).1
  rw [List.getElem?_set, if_pos ha]
  by_cases hab : a = b
  · rw [if_pos hab, if_pos hab.symm]
  · rw [if_neg hab, if_neg (fun hba => hab hba.symm)]

/-- An object was changed, and the map of its kind with it. -/
theorem exact_update (h : Exact c) (ho : c.objects[a]? = some o) (o' : Object)
    (addresses : List Nat) (hkind : o'.kind = o.kind) (hsound : o'.Sound)
    (hmap : ∀ b, b ∈ addresses
      ↔ if b = a then o'.initialized = true ∧ o'.error = none else b ∈ c.enrolled o.kind) :
    Exact ((c.setObject a o').setEnrolled o.kind addresses) where
  enrolled := by
    intro kind b
    rw [enrolled_setEnrolled, enrolled_setObject, Live, objects_setEnrolled]
    show _ ↔ ∃ o'', (c.objects.set a o')[b]? = some o'' ∧ _
    rw [getElem_set ho]
    by_cases hb : b = a
    · subst hb
      rw [if_pos rfl]
      by_cases hsame : kind = o.kind
      · subst hsame
        rw [if_pos rfl, hmap, if_pos rfl]
        constructor
        · rintro ⟨hinit, herror⟩
          exact ⟨o', rfl, hkind, hinit, herror⟩
        · rintro ⟨_, heq, -, hinit, herror⟩
          cases heq
          exact ⟨hinit, herror⟩
      · rw [if_neg hsame, h.enrolled, Live, ho]
        constructor
        · rintro ⟨_, heq, hother, -⟩
          cases heq
          exact absurd hother.symm hsame
        · rintro ⟨_, heq, hother, -⟩
          cases heq
          exact absurd (hother.symm.trans hkind) hsame
    · rw [if_neg hb]
      by_cases hsame : kind = o.kind
      · subst hsame
        rw [if_pos rfl, hmap, if_neg hb]
        exact h.enrolled _ b
      · rw [if_neg hsame]
        exact h.enrolled kind b
  sound := by
    intro b o'' hb
    rw [objects_setEnrolled] at hb
    have hget : (c.objects.set a o')[b]? = some o'' := hb
    rw [getElem_set ho] at hget
    split at hget
    · cases hget
      exact hsound
    · exact h.sound b o'' hget

-- ── Single operations ────────────────────────────────────────────────────────

/-- What an operation on the object at `a` may do. -/
structure Changes (a : Nat) (o' : Object) (c c' : ContextImpl) : Prop where
  exact : Exact c'
  objects : c'.objects = c.objects.set a o'
  tasks : c'.tasks = c.tasks
  error : c'.error = c.error

/-- An object that stays as it was. -/
theorem changes_nothing (h : Exact c) (ho : c.objects[a]? = some o) : Changes a o c c where
  exact := h
  objects := by
    refine List.ext_getElem? (fun b => ?_)
    rw [getElem_set ho]
    split
    · rename_i hb
      rw [hb, ho]
    · rfl
  tasks := rfl
  error := rfl

/-- An object that changes together with its enrolment. -/
theorem changes_update {kind : Kind} {addresses : List Nat}
    (hexact : Exact ((c.setObject a o').setEnrolled kind addresses)) :
    Changes a o' c ((c.setObject a o').setEnrolled kind addresses) where
  exact := hexact
  objects := objects_setEnrolled ..
  tasks := tasks_setEnrolled ..
  error := error_setEnrolled ..

/-- The second change is the one that counts. -/
theorem setObject_setObject (o o' : Object) :
    (c.setObject a o).setObject a o' = c.setObject a o' := by
  show ({ c with objects := (c.objects.set a o).set a o' } : ContextImpl) = _
  rw [List.set_set]
  rfl

/-- What the initialisation does to its object. -/
theorem initFromLoop_changes (h : Exact c) (ho : c.objects[a]? = some o)
    (hfresh : o.initialized = false) :
    ∃ c' o', c.initFromLoop a = some c' ∧ Changes a o' c c' ∧ o'.kind = o.kind
      ∧ o'.initialized = true ∧ (c.error ≠ none → o'.error ≠ none) := by
  obtain ⟨herror, henrolls, hunenrolls⟩ := (h.sound a o ho).fresh hfresh
  have hnot : a ∉ c.enrolled o.kind := by
    rw [h.enrolled]
    rintro ⟨_, heq, -, hinit, -⟩
    cases ho.symm.trans heq
    exact absurd (hfresh.symm.trans hinit) Bool.noConfusion
  rw [initFromLoop, ho, Option.bind_some]
  dsimp only
  by_cases hclosed : c.error.isSome = true
  · rw [if_pos hclosed]
    have hexact := exact_update h ho
      { o with initialized := true, error := some o.kind.closedError } (c.enrolled o.kind) rfl
      ⟨fun hfalse => (nomatch hfalse), fun _ hnone => (nomatch hnone),
        fun _ => ⟨henrolls.trans hunenrolls.symm, by rw [henrolls]; exact Nat.zero_le 1⟩⟩ (by
        intro b
        split
        · rename_i hb
          subst hb
          exact iff_of_false hnot (fun hlive => nomatch hlive.2)
        · rfl)
    have hsame := @setEnrolled_enrolled (c.setObject a { o with
      initialized := true, error := some o.kind.closedError }) o.kind
    rw [enrolled_setObject] at hsame
    rw [hsame] at hexact
    exact ⟨_, _, rfl, ⟨hexact, rfl, rfl, rfl⟩, rfl, rfl, fun _ hnone => nomatch hnone⟩
  · rw [if_neg hclosed, enroll]
    have hget : (c.setObject a { o with initialized := true }).objects[a]?
        = some { o with initialized := true } := (getElem_set ho).trans (if_pos rfl)
    rw [hget, Option.bind_some]
    dsimp only
    rw [enrolled_setObject, if_neg hnot]
    have hexact := exact_update h ho
      { o with initialized := true, enrolls := o.enrolls + 1 } (a :: c.enrolled o.kind) rfl
      ⟨fun hfalse => (nomatch hfalse),
        fun _ _ => ⟨by rw [henrolls], hunenrolls⟩, fun hsome => absurd herror hsome⟩ (by
        intro b
        rw [List.mem_cons]
        split
        · rename_i hb
          exact iff_of_true (.inl hb) (And.intro (Eq.refl true) herror)
        · rename_i hb
          exact ⟨fun hor => hor.resolve_left hb, .inr⟩)
    rw [setObject_setObject]
    refine ⟨_, { o with initialized := true, enrolls := o.enrolls + 1 }, rfl,
      changes_update hexact, rfl, rfl, fun hsome => ?_⟩
    exact absurd (Option.isSome_iff_ne_none.mpr hsome) hclosed

/-- What an error does to its object. -/
theorem setError_changes (h : Exact c) (ho : c.objects[a]? = some o)
    (hinit : o.initialized = true) (error : Option Error) :
    ∃ c' o', c.setError error a = some c' ∧ Changes a o' c c' ∧ o'.kind = o.kind
      ∧ o'.initialized = true ∧ (error ≠ none ∨ o.error ≠ none → o'.error ≠ none)
      ∧ (o'.error = none → o.error = none) := by
  rw [setError, ho, Option.bind_some]
  by_cases hkeep : o.error.isSome = true ∨ error.isNone = true
  · rw [if_pos hkeep]
    refine ⟨c, o, rfl, changes_nothing h ho, rfl, hinit, ?_, id⟩
    rintro (hsome | hsome)
    · rcases hkeep with hset | hnone
      · exact Option.isSome_iff_ne_none.mp hset
      · exact absurd (Option.isNone_iff_eq_none.mp hnone) hsome
    · exact hsome
  · have herror : o.error = none := by
      by_contra hsome
      exact hkeep (.inl (Option.isSome_iff_ne_none.mpr hsome))
    have hsome : error ≠ none := fun hnone => hkeep (.inr (Option.isNone_iff_eq_none.mpr hnone))
    obtain ⟨henrolls, hunenrolls⟩ := (h.sound a o ho).live hinit herror
    have hmem : a ∈ c.enrolled o.kind := (h.enrolled _ _).mpr ⟨o, ho, rfl, hinit, herror⟩
    have hget : (c.setObject a { o with error }).objects[a]? = some { o with error } :=
      (getElem_set ho).trans (if_pos rfl)
    rw [if_neg hkeep, unenroll, hget, Option.bind_some]
    dsimp only
    rw [enrolled_setObject, if_pos hmem]
    have hexact := exact_update h ho { o with error, unenrolls := o.unenrolls + 1 }
      ((c.enrolled o.kind).filter (fun b => b ≠ a)) rfl
      ⟨fun hfalse => absurd (hinit.symm.trans hfalse) Bool.noConfusion,
        fun _ hnone => absurd hnone hsome,
        fun _ => ⟨by rw [henrolls, hunenrolls], Nat.le_of_eq henrolls⟩⟩ (by
        intro b
        rw [List.mem_filter, decide_eq_true_iff]
        split
        · rename_i hb
          exact iff_of_false (fun hand => hand.2 hb) (fun hand => hsome hand.2)
        · rename_i hb
          exact ⟨And.left, fun hold => ⟨hold, hb⟩⟩)
    rw [setObject_setObject]
    exact ⟨_, { o with error, unenrolls := o.unenrolls + 1 }, rfl, changes_update hexact, rfl,
      hinit, fun _ => hsome, fun hnone => absurd hnone hsome⟩

/-- The other objects are as they were. -/
theorem Changes.other (h : Changes a o' c c') (ho : c.objects[a]? = some o) {b : Nat}
    (hb : b ≠ a) : c'.objects[b]? = c.objects[b]? := by
  rw [h.objects, getElem_set ho, if_neg hb]

/-- The object is as it was changed. -/
theorem Changes.self (h : Changes a o' c c') (ho : c.objects[a]? = some o) :
    c'.objects[a]? = some o' := by
  rw [h.objects, getElem_set ho, if_pos rfl]

-- ── Closing all ──────────────────────────────────────────────────────────────

/-- Objects can only have got errors. -/
structure Fails (c c' : ContextImpl) : Prop where
  length : c'.objects.length = c.objects.length
  object : ∀ (b : Nat) (o o' : Object), c.objects[b]? = some o → c'.objects[b]? = some o' →
    o'.kind = o.kind ∧ o'.initialized = o.initialized ∧ (o'.error = none → o.error = none)
  tasks : c'.tasks = c.tasks
  error : c'.error = c.error

/-- Nothing has failed. -/
theorem Fails.refl (c : ContextImpl) : Fails c c where
  length := rfl
  object := by
    intro b o o' ho ho'
    cases ho.symm.trans ho'
    exact ⟨rfl, rfl, id⟩
  tasks := rfl
  error := rfl

/-- An object of the first is an object of the second. -/
theorem Fails.get (h : Fails c c') {b : Nat} (ho : c.objects[b]? = some o) :
    ∃ o', c'.objects[b]? = some o' ∧ o'.kind = o.kind ∧ o'.initialized = o.initialized
      ∧ (o'.error = none → o.error = none) := by
  have hb : b < c'.objects.length := h.length ▸ (List.getElem?_eq_some_iff.mp ho).1
  have ho' : c'.objects[b]? = some c'.objects[b] := List.getElem?_eq_getElem hb
  exact ⟨_, ho', h.object b _ _ ho ho'⟩

/-- Every object after the failures was there before. -/
theorem Fails.back (h : Fails c c') {b : Nat} (ho' : c'.objects[b]? = some o') :
    ∃ o, c.objects[b]? = some o ∧ o'.kind = o.kind ∧ o'.initialized = o.initialized
      ∧ (o'.error = none → o.error = none) := by
  have hb : b < c.objects.length := h.length ▸ (List.getElem?_eq_some_iff.mp ho').1
  have ho : c.objects[b]? = some c.objects[b] := List.getElem?_eq_getElem hb
  exact ⟨_, ho, h.object b _ _ ho ho'⟩

/-- What fails first and what fails later. -/
theorem Fails.trans {c'' : ContextImpl} (h : Fails c c') (h' : Fails c' c'') : Fails c c'' where
  length := h'.length.trans h.length
  object := by
    intro b o o'' ho ho''
    obtain ⟨o', ho', hkind, hinit, herror⟩ := h.get ho
    obtain ⟨hkind', hinit', herror'⟩ := h'.object b o' o'' ho' ho''
    exact ⟨hkind'.trans hkind, hinit'.trans hinit, fun hnone => herror (herror' hnone)⟩
  tasks := h'.tasks.trans h.tasks
  error := h'.error.trans h.error

/-- A change of one object is at most its failure. -/
theorem Changes.fails (h : Changes a o' c c') (ho : c.objects[a]? = some o)
    (hkind : o'.kind = o.kind) (hinit : o'.initialized = o.initialized)
    (herror : o'.error = none → o.error = none) : Fails c c' where
  length := by rw [h.objects, List.length_set]
  object := by
    intro b p p' hp hp'
    by_cases hb : b = a
    · subst hb
      cases ho.symm.trans hp
      cases (h.self ho).symm.trans hp'
      exact ⟨hkind, hinit, herror⟩
    · rw [h.other ho hb, hp] at hp'
      cases hp'
      exact ⟨rfl, rfl, id⟩
  tasks := h.tasks
  error := h.error

/-- An error makes one object fail. -/
theorem setError_fails (h : Exact c) (ho : c.objects[a]? = some o) (hinit : o.initialized = true)
    (error : Option Error) :
    ∃ c', c.setError error a = some c' ∧ Exact c' ∧ Fails c c'
      ∧ (error ≠ none → ∀ o', c'.objects[a]? = some o' → o'.error ≠ none) := by
  obtain ⟨c', o', hset, hchanges, hkind, hinit', hsome, hnone⟩ :=
    setError_changes h ho hinit error
  refine ⟨c', hset, hchanges.exact, hchanges.fails ho hkind (hinit'.trans hinit.symm) hnone, ?_⟩
  intro herror o'' ho''
  cases (hchanges.self ho).symm.trans ho''
  exact hsome (.inl herror)

/-- The loop makes every object of the list fail. -/
theorem closeAll_fails (as : List Nat) : ∀ {c : ContextImpl}, Exact c →
    (∀ a ∈ as, ∃ o, c.objects[a]? = some o ∧ o.initialized = true) →
    ∃ c', closeAll as c = some c' ∧ Exact c' ∧ Fails c c'
      ∧ ∀ a ∈ as, ∀ o', c'.objects[a]? = some o' → o'.error ≠ none := by
  induction as with
  | nil =>
      intro c h _
      exact ⟨c, rfl, h, Fails.refl c, fun _ hmem => absurd hmem List.not_mem_nil⟩
  | cons a rest ih =>
      intro c h hinit
      obtain ⟨o, ho, hoinit⟩ := hinit a (List.mem_cons_self ..)
      obtain ⟨c₁, hset, hexact, hfails, herror⟩ :=
        setError_fails h ho hoinit (some o.kind.closedError)
      obtain ⟨c₂, hclose, hexact', hfails', herrors⟩ := @ih c₁ hexact (by
        intro b hmem
        obtain ⟨p, hp, hpinit⟩ := hinit b (List.mem_cons_of_mem _ hmem)
        obtain ⟨p', hp', -, hpinit', -⟩ := hfails.get hp
        exact ⟨p', hp', hpinit'.trans hpinit⟩)
      refine ⟨c₂, ?_, hexact', hfails.trans hfails', ?_⟩
      · rw [closeAll, closeFromLoop, ho, Option.bind_some, hset, Option.bind_some, hclose]
      · intro b hmem p' hp'
        rcases List.mem_cons.mp hmem with rfl | hrest
        · obtain ⟨p, hp, -, -, hnone⟩ := hfails'.back hp'
          exact fun hp'none => herror (Option.some_ne_none _) p hp (hnone hp'none)
        · exact herrors b hrest p' hp'

/-- Every object that has been initialised has an error. -/
def AllFailed (c : ContextImpl) : Prop :=
  ∀ (a : Nat) (o : Object), c.objects[a]? = some o → o.initialized = true → o.error ≠ none

/-- The closing reaches all that is enrolled. -/
theorem handleError_fails (h : Exact c) :
    ∃ c', c.handleError = some c' ∧ Exact c' ∧ Fails c c' ∧ AllFailed c' := by
  have hinit (kind : Kind) : ∀ a ∈ c.enrolled kind, ∃ o, c.objects[a]? = some o
      ∧ o.initialized = true := by
    intro a hmem
    obtain ⟨o, ho, -, hoinit, -⟩ := (h.enrolled kind a).mp hmem
    exact ⟨o, ho, hoinit⟩
  obtain ⟨c₁, hlisteners, hexact, hfails, herrors⟩ := closeAll_fails _ h (hinit .listener)
  obtain ⟨c₂, hpipes, hexact', hfails', herrors'⟩ := closeAll_fails (c.enrolled .pipe) hexact (by
    intro a hmem
    obtain ⟨o, ho, hoinit⟩ := hinit .pipe a hmem
    obtain ⟨o', ho', -, hoinit', -⟩ := hfails.get ho
    exact ⟨o', ho', hoinit'.trans hoinit⟩)
  refine ⟨c₂, ?_, hexact', hfails.trans hfails', ?_⟩
  · show (closeAll (c.enrolled .listener) c).bind (closeAll (c.enrolled .pipe)) = some c₂
    rw [hlisteners, Option.bind_some, hpipes]
  · intro a o₂ ho₂ hinit₂ hnone₂
    obtain ⟨o₁, ho₁, hkind₁, hinit₁, hnone₁⟩ := hfails'.back ho₂
    obtain ⟨o, ho, hkind, hinit₀, hnone⟩ := hfails.back ho₁
    have hmem : a ∈ c.enrolled o.kind := (h.enrolled _ _).mpr
      ⟨o, ho, rfl, hinit₀.symm.trans (hinit₁.symm.trans hinit₂), hnone (hnone₁ hnone₂)⟩
    cases hkindo : o.kind with
    | listener => exact herrors a (hkindo ▸ hmem) o₁ ho₁ (hnone₁ hnone₂)
    | pipe => exact herrors' a (hkindo ▸ hmem) o₂ ho₂ hnone₂

-- ── The tasks ────────────────────────────────────────────────────────────────

/-- An object that was not initialised has the task that does it, before all others. -/
structure Queued (c : ContextImpl) : Prop where
  known : ∀ task ∈ c.tasks, ∀ a, task.about = some a → a < c.objects.length
  fresh : ∀ (a : Nat) (o : Object), c.objects[a]? = some o → o.initialized = false →
    ∃ rest, history Task.about a c.tasks = .init a :: rest ∧ .init a ∉ rest
  initialized : ∀ (a : Nat) (o : Object), c.objects[a]? = some o → o.initialized = true →
    .init a ∉ c.tasks

/-- What is kept between two tasks. -/
structure Kept (c : ContextImpl) : Prop where
  exact : Exact c
  queued : Queued c
  closed : c.error ≠ none → AllFailed c

/-- A new context. -/
theorem kept_init : Kept {} where
  exact := {
    enrolled := by
      intro kind a
      refine iff_of_false ?_ ?_
      · cases kind <;> exact List.not_mem_nil
      · rintro ⟨o, ho, -⟩
        exact nomatch ho
    sound := fun _ _ ho => nomatch ho }
  queued := {
    known := fun _ hmem => nomatch hmem
    fresh := fun _ _ ho => nomatch ho
    initialized := fun _ _ ho => nomatch ho }
  closed := fun herror => absurd rfl herror

/-- The tasks about an object, when the first task has run. -/
theorem history_cons {task : Task} {rest : List Task} (a : Nat) :
    history Task.about a (task :: rest)
      = if task.about = some a then task :: history Task.about a rest
        else history Task.about a rest := by
  rw [history, List.filter_cons]
  by_cases habout : task.about = some a
  · rw [if_pos (beq_iff_eq.mpr habout), if_pos habout]
    rfl
  · rw [if_neg (fun hbeq => habout (beq_iff_eq.mp hbeq)), if_neg habout]
    rfl

/-- The next task initialises its object, or finds it initialised. -/
theorem Queued.next (h : Queued c) {task : Task} {rest : List Task}
    (htasks : c.tasks = task :: rest) (habout : task.about = some a) :
    ∃ o, c.objects[a]? = some o ∧ (o.initialized = false ↔ task = .init a) := by
  have ha : a < c.objects.length :=
    h.known task (htasks ▸ List.mem_cons_self ..) a habout
  have ho : c.objects[a]? = some c.objects[a] := List.getElem?_eq_getElem ha
  refine ⟨_, ho, ?_⟩
  constructor
  · intro hfresh
    obtain ⟨later, hlater, -⟩ := h.fresh a _ ho hfresh
    rw [htasks, history_cons, if_pos habout] at hlater
    exact (List.cons.inj hlater).1
  · rintro rfl
    refine eq_false_of_ne_true (fun hinit => h.initialized a _ ho hinit ?_)
    rw [htasks]
    exact List.mem_cons_self ..

/-- After the next task.  The object that it is about is initialised now, and new objects are
    initialised at once. -/
theorem queued_next (h : Queued c) {task : Task} {rest : List Task}
    (htasks : c.tasks = task :: rest) (hrest : c'.tasks = rest)
    (hlength : c.objects.length ≤ c'.objects.length)
    (hobjects : ∀ (b : Nat) (o' : Object), c'.objects[b]? = some o' →
      (∃ o, c.objects[b]? = some o ∧ o'.initialized = o.initialized ∧ task ≠ .init b)
        ∨ (o'.initialized = true ∧ (task = .init b ∨ c.objects.length ≤ b))) :
    Queued c' where
  known := by
    intro task' hmem a habout
    refine Nat.lt_of_lt_of_le (h.known task' ?_ a habout) hlength
    rw [htasks]
    exact List.mem_cons_of_mem _ (hrest ▸ hmem)
  fresh := by
    intro b o' ho' hfresh
    rcases hobjects b o' ho' with ⟨o, ho, hsame, hother⟩ | ⟨hinit, -⟩
    · obtain ⟨later, hlater, hnot⟩ := h.fresh b o ho (hsame.symm.trans hfresh)
      rw [htasks, history_cons] at hlater
      by_cases habout : task.about = some b
      · rw [if_pos habout] at hlater
        exact absurd (List.cons.inj hlater).1 hother
      · rw [if_neg habout] at hlater
        exact ⟨later, hrest ▸ hlater, hnot⟩
    · exact absurd (hfresh.symm.trans hinit) Bool.noConfusion
  initialized := by
    intro b o' ho' hinit hmem
    rw [hrest] at hmem
    have hmem' : Task.init b ∈ c.tasks := htasks ▸ List.mem_cons_of_mem _ hmem
    have hb := h.known _ hmem' b rfl
    rcases hobjects b o' ho' with ⟨o, ho, hsame, -⟩ | ⟨-, rfl | hnew⟩
    · exact h.initialized b o ho (hsame.symm.trans hinit) hmem'
    · -- a second task of this kind would be behind the first
      obtain ⟨o, ho, hfresh⟩ := h.next htasks rfl
      obtain ⟨later, hlater, hnot⟩ := h.fresh b o ho (hfresh.mpr rfl)
      have habout : (Task.init b).about = some b := rfl
      rw [htasks, history_cons, if_pos habout] at hlater
      refine hnot ?_
      rw [← (List.cons.inj hlater).2]
      exact mem_history.mpr ⟨hmem, rfl⟩
    · exact absurd hb (Nat.not_lt.mpr hnew)

/-- The maps do not depend on what is deferred. -/
theorem Exact.withTasks (h : Exact c) (tasks : List Task) : Exact { c with tasks } :=
  ⟨h.enrolled, h.sound⟩

/-- What a task does: nothing that it asserts fails, and a closed context stays so. -/
def Carries (c : ContextImpl) (task : Task) (rest : List Task) : Prop :=
  ∃ c', { c with tasks := rest }.run task = some c' ∧ Kept c'
    ∧ (c.error ≠ none ∨ task = .closeContext → c'.error ≠ none)

/-- Objects that have failed stay so. -/
theorem allFailed_of_fails (h : AllFailed c) (hfails : Fails c c') : AllFailed c' := by
  intro a o' ho' hinit hnone
  obtain ⟨o, ho, -, hsame, herror⟩ := hfails.back ho'
  exact h a o ho (hsame.symm.trans hinit) (herror hnone)

/-- A failure takes no task away but its own. -/
theorem queued_of_fails (h : Queued c) {task : Task} {rest : List Task}
    (htasks : c.tasks = task :: rest) (hinit : ∀ b, task ≠ .init b) (d : ContextImpl)
    (hobjects : d.objects = c.objects) (hrest : d.tasks = rest) (hfails : Fails d c') :
    Queued c' := by
  refine queued_next h htasks (hfails.tasks.trans hrest) ?_ (fun b o' ho' => .inl ?_)
  · exact Nat.le_of_eq ((congrArg List.length hobjects).symm.trans hfails.length.symm)
  · obtain ⟨o, ho, -, hsame, -⟩ := hfails.back ho'
    exact ⟨o, hobjects ▸ ho, hsame, hinit b⟩

/-- A task that does no more than raise errors. -/
theorem carries_of_fails (h : Kept c) {task : Task} {rest : List Task}
    (htasks : c.tasks = task :: rest) (hinit : ∀ b, task ≠ .init b) (hclose : task ≠ .closeContext)
    (hrun : { c with tasks := rest }.run task = some c') (hexact : Exact c')
    (hfails : Fails { c with tasks := rest } c') : Carries c task rest := by
  have hqueued := queued_of_fails h.queued htasks hinit { c with tasks := rest } rfl rfl hfails
  refine ⟨c', hrun, ⟨hexact, hqueued, ?_⟩, ?_⟩
  · intro herror
    exact @allFailed_of_fails { c with tasks := rest } c' (h.closed (hfails.error ▸ herror)) hfails
  · rintro (herror | rfl)
    · rw [hfails.error]
      exact herror
    · exact absurd rfl hclose

/-- An object is one of those that there were, or the new one. -/
theorem getElem_concat {objects : List Object} {p : Object} {b : Nat}
    (ho : (objects ++ [p])[b]? = some o) : objects[b]? = some o ∨ b = objects.length ∧ o = p := by
  rw [List.getElem?_append] at ho
  split at ho
  · exact .inl ho
  · have hlt := (List.getElem?_eq_some_iff.mp ho).1
    rw [List.length_singleton] at hlt
    exact .inr ⟨by omega, List.mem_singleton.mp (List.mem_of_getElem? ho)⟩

/-- A new object is not enrolled before its initialisation. -/
theorem exact_create (h : Exact c) (kind : Kind) (tasks : List Task) :
    Exact { c with objects := c.objects ++ [{ kind }], tasks } where
  enrolled := by
    intro kind' a
    refine (h.enrolled kind' a).trans ?_
    constructor
    · rintro ⟨o, ho, hlive⟩
      exact ⟨o, (List.getElem?_append_left (List.getElem?_eq_some_iff.mp ho).1).trans ho, hlive⟩
    · rintro ⟨o, ho, hkind, hinit, herror⟩
      rcases getElem_concat ho with hold | ⟨-, rfl⟩
      · exact ⟨o, hold, hkind, hinit, herror⟩
      · exact nomatch hinit
  sound := by
    intro a o ho
    rcases getElem_concat ho with hold | ⟨-, rfl⟩
    · exact h.sound a o hold
    · exact ⟨fun _ => ⟨rfl, rfl, rfl⟩, fun hinit => (nomatch hinit),
        fun herror => absurd rfl herror⟩

/-- The initialisation of an object. -/
theorem init_carries (h : Kept c) {rest : List Task} (htasks : c.tasks = .init a :: rest) :
    Carries c (.init a) rest := by
  obtain ⟨o, ho, hfresh⟩ := h.queued.next htasks rfl
  have hexact := h.exact.withTasks rest
  obtain ⟨c', o', hrun, hchanges, -, hinit, herror⟩ :=
    initFromLoop_changes hexact ho (hfresh.mpr rfl)
  refine ⟨c', hrun, ⟨hchanges.exact, ?_, ?_⟩, ?_⟩
  · refine queued_next h.queued htasks hchanges.tasks ?_ (fun b p' hp' => ?_)
    · exact Nat.le_of_eq (by rw [hchanges.objects, List.length_set])
    · by_cases hb : b = a
      · subst hb
        cases (hchanges.self ho).symm.trans hp'
        exact .inr ⟨hinit, .inl rfl⟩
      · rw [hchanges.other ho hb] at hp'
        exact .inl ⟨p', hp', rfl, fun hsame => hb (Task.init.inj hsame).symm⟩
  · intro hclosed b p' hp' hpinit
    rw [hchanges.error] at hclosed
    by_cases hb : b = a
    · subst hb
      cases (hchanges.self ho).symm.trans hp'
      exact herror hclosed
    · rw [hchanges.other ho hb] at hp'
      exact h.closed hclosed b p' hp' hpinit
  · rintro (hclosed | hfalse)
    · rw [hchanges.error]
      exact hclosed
    · exact nomatch hfalse

/-- The close of the context. -/
theorem closeContext_carries (h : Kept c) {rest : List Task}
    (htasks : c.tasks = .closeContext :: rest) : Carries c .closeContext rest := by
  have hexact := h.exact.withTasks rest
  rw [Carries, run, closeContextFromLoop]
  by_cases hclosed : c.error.isSome = true
  · rw [if_pos hclosed]
    have hsome := Option.isSome_iff_ne_none.mp hclosed
    exact ⟨_, rfl, ⟨hexact, queued_of_fails h.queued htasks (fun _ hinit => (nomatch hinit))
      { c with tasks := rest } rfl rfl (Fails.refl _), h.closed⟩, fun _ => hsome⟩
  · rw [if_neg hclosed]
    have hexact₁ : Exact { c with tasks := rest, error := some .ContextClosedError } :=
      ⟨hexact.enrolled, hexact.sound⟩
    obtain ⟨c', hrun, hexact', hfails, hall⟩ := handleError_fails hexact₁
    refine ⟨c', hrun, ⟨hexact', ?_, fun _ => hall⟩, fun _ => ?_⟩
    · exact queued_of_fails h.queued htasks (fun _ hinit => (nomatch hinit))
        { c with tasks := rest, error := some .ContextClosedError } rfl rfl hfails
    · rw [hfails.error]
      exact Option.some_ne_none _

/-- The hello of a connection, by which a listener may make a pipe. -/
theorem hello_carries (h : Kept c) {rest : List Task} {error : Option Error} {spontaneous : Bool}
    (htasks : c.tasks = .hello a error spontaneous :: rest) :
    Carries c (.hello a error spontaneous) rest := by
  have hnot (b : Nat) : Task.hello a error spontaneous ≠ .init b := fun hinit => nomatch hinit
  have hexact := h.exact.withTasks rest
  obtain ⟨o, ho, hfresh⟩ := h.queued.next htasks rfl
  have hinit : o.initialized = true :=
    eq_true_of_ne_false (fun hfalse => hnot a (hfresh.mp hfalse))
  obtain ⟨c₁, hset, hexact₁, hfails, -⟩ := setError_fails hexact ho hinit error
  obtain ⟨o₁, ho₁, -⟩ := hfails.get ho
  by_cases hpipe : o₁.error.isSome = false ∧ spontaneous = true
  · obtain ⟨hsome, hspont⟩ := hpipe
    have hlength : c₁.objects.length = c.objects.length := hfails.length
    have hnew : (c₁.objects ++ [{ kind := .pipe }])[c₁.objects.length]?
        = some { kind := .pipe } := List.getElem?_concat_length
    obtain ⟨c₂, p, hinit₂, hchanges, -, hpinit, hperror⟩ :=
      initFromLoop_changes (exact_create hexact₁ .pipe c₁.tasks) hnew rfl
    have hrun : { c with tasks := rest }.run (.hello a error spontaneous) = some c₂ := by
      rw [run, helloFromLoop, hset, Option.bind_some, ho₁, Option.bind_some, hsome, hspont]
      exact hinit₂
    -- the objects that there were, and the new pipe
    have hobjects (b : Nat) (p' : Object) (hp' : c₂.objects[b]? = some p') :
        c₁.objects[b]? = some p' ∨ b = c₁.objects.length ∧ p' = p := by
      by_cases hb : b = c₁.objects.length
      · subst hb
        exact .inr ⟨rfl, Option.some.inj (hp'.symm.trans (hchanges.self hnew))⟩
      · rw [hchanges.other hnew hb] at hp'
        exact .inl ((getElem_concat hp').resolve_right (fun hnew => hb hnew.1))
    refine ⟨c₂, hrun, ⟨hchanges.exact, ?_, ?_⟩, ?_⟩
    · refine queued_next h.queued htasks (hchanges.tasks.trans hfails.tasks) ?_
        (fun b p' hp' => ?_)
      · rw [hchanges.objects, List.length_set, List.length_append, hlength]
        exact Nat.le_add_right _ _
      · rcases hobjects b p' hp' with hold | ⟨rfl, rfl⟩
        · obtain ⟨q, hq, -, hsame, -⟩ := hfails.back hold
          exact .inl ⟨q, hq, hsame, hnot b⟩
        · exact .inr ⟨hpinit, .inr (Nat.le_of_eq hlength.symm)⟩
    · intro hclosed b p' hp' hp'init
      have hclosed₁ : c₁.error ≠ none := hchanges.error ▸ hclosed
      rcases hobjects b p' hp' with hold | ⟨rfl, rfl⟩
      · exact @allFailed_of_fails { c with tasks := rest } c₁
          (h.closed (hfails.error ▸ hclosed₁)) hfails b p' hold hp'init
      · exact hperror hclosed₁
    · rintro (hclosed | hfalse)
      · rw [hchanges.error]
        show c₁.error ≠ none
        rw [hfails.error]
        exact hclosed
      · exact nomatch hfalse
  · have hrun : { c with tasks := rest }.run (.hello a error spontaneous) = some c₁ := by
      rw [run, helloFromLoop, hset, Option.bind_some, ho₁, Option.bind_some]
      by_cases hsome : o₁.error.isSome = true
      · rw [if_pos hsome]
      · rw [if_neg hsome, if_neg (fun hspont => hpipe ⟨eq_false_of_ne_true hsome, hspont⟩)]
    exact carries_of_fails h htasks hnot (fun hclose => nomatch hclose) hrun hexact₁ hfails

/-- The next task, whichever it is. -/
theorem next_carries (h : Kept c) {task : Task} {rest : List Task}
    (htasks : c.tasks = task :: rest) : Carries c task rest := by
  have hexact := h.exact.withTasks rest
  -- an error for an object that has been initialised
  have herror {b : Nat} (habout : task.about = some b) (hinit : ∀ b, task ≠ .init b)
      (hclose : task ≠ .closeContext) (error : Object → Option Error)
      (hrun : ∀ o, c.objects[b]? = some o →
        { c with tasks := rest }.run task = { c with tasks := rest }.setError (error o) b) :
      Carries c task rest := by
    obtain ⟨o, ho, hfresh⟩ := h.queued.next htasks habout
    have hoinit := eq_true_of_ne_false (fun hfalse => hinit b (hfresh.mp hfalse))
    obtain ⟨c', hset, hexact', hfails, -⟩ := setError_fails hexact ho hoinit (error o)
    exact carries_of_fails h htasks hinit hclose ((hrun o ho).trans hset) hexact' hfails
  cases task with
  | init a => exact init_carries h htasks
  | close a =>
      refine herror rfl (fun _ hinit => nomatch hinit) (fun hclose => nomatch hclose)
        (fun o => some o.kind.closedError) (fun o ho => ?_)
      rw [run, closeFromLoop, ho, Option.bind_some]
  | callback a error =>
      exact herror rfl (fun _ hinit => nomatch hinit) (fun hclose => nomatch hclose)
        (fun _ => error) (fun _ _ => rfl)
  | hello a error spontaneous => exact hello_carries h htasks
  | closeContext => exact closeContext_carries h htasks

-- ── Whole runs ───────────────────────────────────────────────────────────────

/-- A task is deferred, for an object that exists. -/
theorem defer_queued (h : Queued c) {task : Task} (hinit : ∀ a, task ≠ .init a)
    (hknown : ∀ a, task.about = some a → a < c.objects.length) :
    Queued { c with tasks := c.tasks ++ [task] } where
  known := by
    intro task' hmem a habout
    rcases List.mem_append.mp hmem with hold | hnew
    · exact h.known task' hold a habout
    · rw [List.mem_singleton.mp hnew] at habout
      exact hknown a habout
  fresh := by
    intro a o ho hfresh
    obtain ⟨rest, hrest, hnot⟩ := h.fresh a o ho hfresh
    refine ⟨rest ++ history Task.about a [task], ?_, ?_⟩
    · show history Task.about a (c.tasks ++ [task]) = _
      rw [history_append, hrest]
      rfl
    · intro hmem
      rcases List.mem_append.mp hmem with hold | hnew
      · exact hnot hold
      · exact hinit a (List.mem_singleton.mp (mem_history.mp hnew).1).symm
  initialized := by
    intro a o ho hoinit hmem
    rcases List.mem_append.mp hmem with hold | hnew
    · exact h.initialized a o ho hoinit hold
    · exact hinit a (List.mem_singleton.mp hnew).symm

/-- A new object has its initialisation ahead of all that is about it. -/
theorem create_queued (h : Queued c) (kind : Kind) :
    Queued { c with
      objects := c.objects ++ [{ kind }]
      tasks := c.tasks ++ [.init c.objects.length] } where
  known := by
    intro task hmem a habout
    show a < (c.objects ++ [_]).length
    rw [List.length_append, List.length_singleton]
    rcases List.mem_append.mp hmem with hold | hnew
    · exact Nat.lt_succ_of_lt (h.known task hold a habout)
    · rw [List.mem_singleton.mp hnew] at habout
      exact Option.some.inj habout ▸ Nat.lt_succ_self _
  fresh := by
    intro a o ho hfresh
    show ∃ rest, history Task.about a (c.tasks ++ [.init c.objects.length]) = _ ∧ _
    rw [history_append]
    rcases getElem_concat ho with hold | ⟨rfl, -⟩
    · obtain ⟨rest, hrest, hnot⟩ := h.fresh a o hold hfresh
      have hlt := (List.getElem?_eq_some_iff.mp hold).1
      have hnone : history Task.about a [.init c.objects.length] = [] := by
        refine history_other (fun task hmem habout => ?_)
        rw [List.mem_singleton.mp hmem] at habout
        exact Nat.ne_of_gt hlt (Option.some.inj habout)
      rw [hrest, hnone, List.append_nil]
      exact ⟨rest, rfl, hnot⟩
    · have hnone : history Task.about c.objects.length c.tasks = [] :=
        history_other (fun task hmem habout => Nat.lt_irrefl _ (h.known task hmem _ habout))
      have habout : (Task.init c.objects.length).about = some c.objects.length := rfl
      rw [hnone, history_cons, if_pos habout]
      exact ⟨[], rfl, List.not_mem_nil⟩
  initialized := by
    intro a o ho hinit hmem
    rcases getElem_concat ho with hold | ⟨-, rfl⟩
    · rcases List.mem_append.mp hmem with hin | hnew
      · exact h.initialized a o hold hinit hin
      · have hlt := (List.getElem?_eq_some_iff.mp hold).1
        exact Nat.ne_of_lt hlt (Task.init.inj (List.mem_singleton.mp hnew))
    · exact nomatch hinit

/-- What every step does, whenever it can come. -/
theorem step_kept (h : Kept c) (s : Step) (henabled : c.enabled s) :
    ∃ c', c.step s = some c' ∧ Kept c' ∧ (c.error ≠ none → c'.error ≠ none) := by
  cases s with
  | create kind =>
      refine ⟨_, rfl, ⟨exact_create h.exact kind _, create_queued h.queued kind, ?_⟩, id⟩
      intro hclosed a o ho hinit
      rcases getElem_concat ho with hold | ⟨-, rfl⟩
      · exact h.closed hclosed a o hold hinit
      · exact nomatch hinit
  | defer task =>
      refine ⟨_, rfl, ⟨h.exact.withTasks _, defer_queued h.queued ?_ ?_, h.closed⟩, id⟩
      · rintro a rfl
        exact henabled
      · intro a habout
        cases task with
        | init b => exact henabled.elim
        | close b => exact Option.some.inj habout ▸ henabled
        | callback b error =>
            obtain ⟨o, ho, -⟩ := henabled
            exact Option.some.inj habout ▸ (List.getElem?_eq_some_iff.mp ho).1
        | hello b error spontaneous =>
            obtain ⟨o, ho, -⟩ := henabled
            exact Option.some.inj habout ▸ (List.getElem?_eq_some_iff.mp ho).1
        | closeContext => exact nomatch habout
  | rehash listeners pipes =>
      refine ⟨_, rfl, ⟨⟨fun kind a => ?_, h.exact.sound⟩, ⟨h.queued.known, h.queued.fresh,
        h.queued.initialized⟩, h.closed⟩, id⟩
      refine Iff.trans ?_ (h.exact.enrolled kind a)
      cases kind with
      | listener => exact henabled.1.mem_iff
      | pipe => exact henabled.2.mem_iff
  | next =>
      obtain ⟨task, rest, htasks⟩ := List.exists_cons_of_ne_nil henabled
      obtain ⟨c', hrun, hkept, herror⟩ := next_carries h htasks
      refine ⟨c', ?_, hkept, fun hclosed => herror (.inl hclosed)⟩
      rw [step, htasks]
      exact hrun

/-- A run keeps the invariant, and a context once closed stays so. -/
theorem run_kept (h : Kept c) (hrun : Run c c') :
    Kept c' ∧ (c.error ≠ none → c'.error ≠ none) := by
  induction hrun with
  | refl => exact ⟨h, id⟩
  | step _ s henabled hstep ih =>
      obtain ⟨c'', hsome, hkept, herror⟩ := step_kept ih.1 s henabled
      cases hstep.symm.trans hsome
      exact ⟨hkept, fun hclosed => herror (ih.2 hclosed)⟩

/-- Once the context is closed, nothing is enrolled. -/
theorem Kept.empty (h : Kept c) (hclosed : c.error ≠ none) : c.listeners = [] ∧ c.pipes = [] := by
  have hempty (kind : Kind) : c.enrolled kind = [] := by
    refine List.eq_nil_iff_forall_not_mem.mpr (fun a hmem => ?_)
    obtain ⟨o, ho, -, hinit, herror⟩ := (h.exact.enrolled kind a).mp hmem
    exact h.closed hclosed a o ho hinit herror
  exact ⟨hempty .listener, hempty .pipe⟩

/-- What holds between any two tasks: the maps have what was initialised and has no error; no
    object enrolls or unenrolls twice; no assertion fails in what comes next; and the task that
    closes the context leaves the maps empty, for good. -/
structure Governed (c : ContextImpl) : Prop where
  listeners : ∀ a, a ∈ c.listeners ↔ c.Live .listener a
  pipes : ∀ a, a ∈ c.pipes ↔ c.Live .pipe a
  once : ∀ (a : Nat) (o : Object), c.objects[a]? = some o → o.enrolls ≤ 1 ∧ o.unenrolls ≤ 1
  total : ∀ s, c.enabled s → ∃ c', c.step s = some c'
  closing : ∀ rest c', c.tasks = .closeContext :: rest → c.step .next = some c' →
    ∀ c'', Run c' c'' → c''.listeners = [] ∧ c''.pipes = []

/-- In every run. -/
theorem close_reaches_all (h : Reachable c) : Governed c := by
  obtain ⟨hkept, -⟩ := run_kept kept_init h
  exact {
    listeners := hkept.exact.enrolled .listener
    pipes := hkept.exact.enrolled .pipe
    once := by
      intro a o ho
      have hsound := hkept.exact.sound a o ho
      by_cases herror : o.error = none
      · cases hinit : o.initialized with
        | false =>
            obtain ⟨-, henrolls, hunenrolls⟩ := hsound.fresh hinit
            omega
        | true =>
            obtain ⟨henrolls, hunenrolls⟩ := hsound.live hinit herror
            omega
      · obtain ⟨hsame, hone⟩ := hsound.failed herror
        omega
    total := by
      intro s henabled
      obtain ⟨c', hstep, -⟩ := step_kept hkept s henabled
      exact ⟨c', hstep⟩
    closing := by
      intro rest c' htasks hstep c'' hrun
      obtain ⟨c₁, hsome, hkept₁, herror⟩ := next_carries hkept htasks
      rw [step, htasks] at hstep
      cases hstep.symm.trans hsome
      obtain ⟨hkept'', herror''⟩ := run_kept hkept₁ hrun
      exact hkept''.empty (herror'' (herror (.inr rfl))) }

/-- A listener that is closed with the context, when it had just accepted a pipe. -/
theorem close_reaches_all_accepted : ∃ c, Governed c ∧ c.listeners = [0] ∧ c.pipes = [1]
    ∧ c.tasks = [.closeContext] := by
  have h₁ : Run {} _ := .step .refl (.create .listener) trivial rfl
  have h₂ : Run {} _ := .step h₁ .next (List.cons_ne_nil _ _) rfl
  have h₃ : Run {} _ := .step h₂ (.defer (.hello 0 none true)) ⟨_, rfl, rfl, rfl⟩ rfl
  have h₄ : Run {} _ := .step h₃ (.defer .closeContext) trivial rfl
  have h₅ : Run {} _ := .step h₄ .next (List.cons_ne_nil _ _) rfl
  exact ⟨_, close_reaches_all h₅, rfl, rfl, rfl⟩

end ContextImpl

end TpCore
