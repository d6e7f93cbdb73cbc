import Mathlib.Data.List.Basic
import Mathlib.Tactic.Common
import Tensorpipe.StreamFramingProofs

/-! # The uv connection — reads, writes and the error

    After an error the reads are answered at once.  The writes are not: libuv still reads from
    their buffers, and each of them is answered when its own request completes.  Reads and
    writes that come after the error are not handed to libuv, and are answered on the spot.

    The idea of the proofs: the queue of the connection is, request by request, the queue of
    libuv (`Kept.inFlight`).  What a request was told thus tells what its write was told, and no
    error takes anything off either queue. -/

namespace TpUv

-- ── The handle ───────────────────────────────────────────────────────────────

/-- The errors of a connection: its own close, or what libuv reports. -/
inductive Error where
  | ConnectionClosedError
  | UVError (status : Int)
deriving DecidableEq, Repr

/-- What libuv was given to send.  `id` tells the requests apart: it is the number of the write
    whose callback was stored in the same call. -/
structure WriteRequest where
  id : Nat
  bufs : List (List UInt8)
deriving DecidableEq, Repr

/-- Of the write requests that were `submitted`, the callback of those in `completed` has fired,
    and that of those in `requests` has not. -/
structure TCPHandle where
  armed : Bool := false
  connecting : Bool := false
  reading : Bool := false
  closing : Bool := false
  closed : Bool := false
  submitted : List WriteRequest := []
  requests : List WriteRequest := []
  completed : List WriteRequest := []
deriving DecidableEq, Repr

namespace TCPHandle

/-- The three callbacks are armed together.  In all that follows `none` stands for an exception
    or a failed assertion. -/
def armFromLoop (handle : TCPHandle) : Option TCPHandle :=
  if handle.armed then none else some { handle with armed := true }

/-- `uv_read_start`, on a handle that was armed. -/
def readStartFromLoop (handle : TCPHandle) : Option TCPHandle :=
  if handle.armed = false ∨ handle.closing = true then none
  else some { handle with reading := true }

/-- `uv_read_stop`. -/
def readStopFromLoop (handle : TCPHandle) : TCPHandle := { handle with reading := false }

/-- `uv_write`, which keeps the request until it has completed. -/
def writeFromLoop (request : WriteRequest) (handle : TCPHandle) : Option TCPHandle :=
  if handle.closing then none
  else some { handle with
    submitted := handle.submitted ++ [request]
    requests := handle.requests ++ [request] }

/-- Closing also stops the reading. -/
def closeFromLoop (handle : TCPHandle) : Option TCPHandle :=
  if handle.closing then none else some { handle with closing := true, reading := false }

/-- libuv is done with the first of the requests, and calls its callback. -/
def uvWriteCb (handle : TCPHandle) : TCPHandle :=
  match handle.requests with
  | [] => handle
  | request :: rest =>
      { handle with requests := rest, completed := handle.completed ++ [request] }

end TCPHandle

-- ── The connection ───────────────────────────────────────────────────────────

/-- What a read callback was told, with the number of its read. -/
structure ReadCall where
  id : Nat
  error : Option Error
  bytes : Option (List UInt8)
  length : Nat
deriving DecidableEq, Repr

/-- The callback of a write, as it was called. -/
structure WriteCall where
  id : Nat
  error : Option Error
deriving DecidableEq, Repr

/-- An operation is stored with the number of its callback. -/
structure ConnectionImpl where
  initialized : Bool := false
  enrolled : Bool := false
  error : Option Error := none
  nextBufferBeingRead : Nat := 0
  nextBufferBeingWritten : Nat := 0
  readOperations : List (Nat × StreamReadOperation) := []
  writeOperations : List (Nat × Payload) := []
  handle : TCPHandle := {}
  readCallbacks : List ReadCall := []
  writeCallbacks : List WriteCall := []
deriving DecidableEq, Repr

/-- `StreamReadOperation::callbackFromLoop` and `StreamWriteOperation::callbackFromLoop`. -/
def StreamReadOperation.callbackFromLoop (error : Option Error) (op : Nat × StreamReadOperation) :
    ReadCall :=
  { id := op.1, error, bytes := op.2.ptr, length := op.2.readLength }

/-- Calls back a write. -/
def Payload.callbackFromLoop (error : Option Error) (op : Nat × Payload) : WriteCall :=
  { id := op.1, error }

/-- The request of a write operation. -/
def Payload.request (op : Nat × Payload) : WriteRequest := { id := op.1, bufs := op.2.getBufs }

namespace ConnectionImpl

/-- What the first error does: the reads are called back, the handle is closed. -/
def handleErrorImpl (c : ConnectionImpl) : Option ConnectionImpl :=
  let c := { c with
    readCallbacks := c.readCallbacks
      ++ c.readOperations.map (StreamReadOperation.callbackFromLoop c.error)
    readOperations := [] }
  c.handle.closeFromLoop.map (fun handle => { c with handle })

/-- Don't overwrite an error that's already set. -/
def setError (error : Error) (c : ConnectionImpl) : Option ConnectionImpl :=
  if c.error.isSome then some c else { c with error := some error }.handleErrorImpl

/-- `closed` is whether the context was, and `sockaddr` whether the connection is to connect
    or was accepted. -/
def initFromLoop (closed sockaddr : Bool) (c : ConnectionImpl) : Option ConnectionImpl :=
  let c := { c with initialized := true }
  if closed then some { c with error := some .ConnectionClosedError }
  else
    let handle := if sockaddr then { c.handle with connecting := true } else c.handle
    handle.armFromLoop.map (fun handle => { c with enrolled := true, handle })

/-- The callback that `connectFromLoop` was given. -/
def connectCallbackFromLoop (status : Int) (c : ConnectionImpl) : Option ConnectionImpl :=
  if status < 0 then c.setError (.UVError status) else some c

/-- A read, which starts the reading of the handle when it is the only one. -/
def readImplFromLoop (fn : Nat) (buffer : Option (List UInt8)) (c : ConnectionImpl) :
    Option ConnectionImpl :=
  let c := { c with readOperations := c.readOperations ++ [(fn, .make buffer)] }
  -- Start reading if this is the first read operation.
  if c.readOperations.length = 1 then
    c.handle.readStartFromLoop.map (fun handle => { c with handle })
  else some c

/-- A call of `read`. -/
def readFromLoop (buffer : Option (List UInt8)) (c : ConnectionImpl) : Option ConnectionImpl :=
  let fn := c.nextBufferBeingRead
  let c := { c with nextBufferBeingRead := fn + 1 }
  if c.error.isSome then
    some { c with
      readCallbacks := c.readCallbacks
        ++ [⟨fn, c.error, buffer, (buffer.map List.length).getD 0⟩] }
  else c.readImplFromLoop fn buffer

/-- A write, which is handed to the handle at once. -/
def writeImplFromLoop (fn : Nat) (p : Payload) (c : ConnectionImpl) : Option ConnectionImpl :=
  let c := { c with writeOperations := c.writeOperations ++ [(fn, p)] }
  (c.handle.writeFromLoop (Payload.request (fn, p))).map (fun handle => { c with handle })

/-- A call of `write`. -/
def writeFromLoop (p : Payload) (c : ConnectionImpl) : Option ConnectionImpl :=
  let fn := c.nextBufferBeingWritten
  let c := { c with nextBufferBeingWritten := fn + 1 }
  if c.error.isSome then
    some { c with writeCallbacks := c.writeCallbacks ++ [⟨fn, c.error⟩] }
  else c.writeImplFromLoop fn p

/-- A call of `close`. -/
def closeFromLoop (c : ConnectionImpl) : Option ConnectionImpl :=
  c.setError .ConnectionClosedError

/-- A round of libuv: the allocation callback, and the read callback with these bytes. -/
def readCallbackFromLoop (bytes : List UInt8) (c : ConnectionImpl) : Option ConnectionImpl :=
  match c.readOperations with
  | [] => none
  | (fn, op) :: rest =>
      (op.feed bytes).map (fun op =>
        if op.completeFromLoop then
          { c with
            readCallbacks := c.readCallbacks
              ++ [StreamReadOperation.callbackFromLoop none (fn, op)]
            readOperations := rest
            handle := if rest.isEmpty then c.handle.readStopFromLoop else c.handle }
        else { c with readOperations := (fn, op) :: rest })

/-- The read callback with a status. -/
def readErrorFromLoop (status : Int) (c : ConnectionImpl) : Option ConnectionImpl :=
  c.setError (.UVError status)

/-- The callback of `uv_write`. -/
def writeCallbackFromLoop (status : Int) (c : ConnectionImpl) : Option ConnectionImpl :=
  -- Do NOT return after the error, which fires the callbacks of the reads only.
  (if status < 0 then c.setError (.UVError status) else some c).bind (fun c =>
    match c.writeOperations with
    | [] => none
    | op :: rest =>
        some { c with
          writeCallbacks := c.writeCallbacks ++ [Payload.callbackFromLoop c.error op]
          writeOperations := rest })

/-- The callback of `uv_close`, by which all writes have completed. -/
def closeCallbackFromLoop (c : ConnectionImpl) : Option ConnectionImpl :=
  if c.writeOperations.isEmpty ∧ c.enrolled = true then some { c with enrolled := false }
  else none

-- ── Runs ─────────────────────────────────────────────────────────────────────

/-- What the loop runs next: a task that the user deferred, or a callback of libuv. -/
inductive Step where
  | init (closed sockaddr : Bool)
  | read (buffer : Option (List UInt8))
  | write (p : Payload)
  | close
  | connected (status : Int)
  | readable (bytes : List UInt8)
  | readFailed (status : Int)
  | written (status : Int)
  | closed
deriving DecidableEq, Repr

/-- A connection is initialised before all else.  libuv reads while it was told to, into the
    buffer that it was offered; it completes the requests in the order in which it got them,
    and all of them before it tells that the handle is closed. -/
def enabled (c : ConnectionImpl) : Step → Prop
  | .init _ _ => c.initialized = false
  | .read _ | .write _ | .close => c.initialized = true
  | .connected _ => c.handle.connecting = true
  | .readable bytes => c.handle.reading = true
      ∧ ∀ op rest offer, c.readOperations = op :: rest → op.2.allocFromLoop = some offer →
        bytes.length ≤ offer.len
  | .readFailed status => c.handle.reading = true ∧ status < 0
  | .written _ => c.handle.requests ≠ []
  | .closed => c.handle.closing = true ∧ c.handle.closed = false ∧ c.handle.requests = []

/-- A task of the loop, or a callback of libuv. -/
def step (c : ConnectionImpl) : Step → Option ConnectionImpl
  | .init closed sockaddr => c.initFromLoop closed sockaddr
  | .read buffer => c.readFromLoop buffer
  | .write p => c.writeFromLoop p
  | .close => c.closeFromLoop
  | .connected status =>
      { c with handle := { c.handle with connecting := false } }.connectCallbackFromLoop status
  | .readable bytes => c.readCallbackFromLoop bytes
  | .readFailed status => c.readErrorFromLoop status
  | .written status => { c with handle := c.handle.uvWriteCb }.writeCallbackFromLoop status
  | .closed => { c with handle := { c.handle with closed := true } }.closeCallbackFromLoop

/-- The connections that can be reached from a new one. -/
inductive Reachable : ConnectionImpl → Prop where
  | init : Reachable {}
  | step {c c' : ConnectionImpl} (h : Reachable c) (s : Step) (henabled : c.enabled s)
      (hstep : c.step s = some c') : Reachable c'

-- ── What is kept ─────────────────────────────────────────────────────────────

/-- The numbers of the writes whose callback was invoked, and of the reads. -/
def writeAnswers (c : ConnectionImpl) : List Nat := c.writeCallbacks.map WriteCall.id

/-- The reads that were called back, in order. -/
def readAnswers (c : ConnectionImpl) : List Nat := c.readCallbacks.map ReadCall.id

/-- How many writes were handed to libuv; these came before the error. -/
def handed (c : ConnectionImpl) : Nat := c.handle.submitted.length

/-- What every step keeps of a connection and of its handle. -/
structure Kept (c : ConnectionImpl) : Prop where
  inFlight : c.handle.requests = c.writeOperations.map Payload.request
  submitted : c.handle.submitted = c.handle.completed ++ c.handle.requests
  numbered : c.handle.submitted.map WriteRequest.id = List.range c.handed
  answered : c.writeAnswers.filter (· < c.handed) = c.handle.completed.map WriteRequest.id
  refused : c.writeAnswers.filter (c.handed ≤ ·)
    = List.range' c.handed (c.nextBufferBeingWritten - c.handed)
  late : ∀ call ∈ c.writeCallbacks, c.handed ≤ call.id → c.error ≠ none ∧ call.error = c.error
  within : c.handed ≤ c.nextBufferBeingWritten
  all : c.error = none → c.handed = c.nextBufferBeingWritten
  reads : c.readAnswers ++ c.readOperations.map Prod.fst = List.range c.nextBufferBeingRead
  unfinished : ∀ op ∈ c.readOperations, op.2.completeFromLoop = false
  flushed : c.error ≠ none → c.readOperations = []
  reading : c.handle.reading = true → c.readOperations ≠ []
  fresh : c.initialized = false → c = {}
  live : c.initialized = true → c.error = none →
    c.handle.armed = true ∧ c.handle.closing = false
  closing : c.handle.closing = true → c.error ≠ none ∧ c.handle.armed = true
  enrolled : c.handle.armed = true → c.handle.closed = false → c.enrolled = true

variable {c c' : ConnectionImpl}

/-- A new connection. -/
theorem kept_init : Kept {} where
  inFlight := rfl
  submitted := rfl
  numbered := rfl
  answered := rfl
  refused := rfl
  late := fun _ hcall => nomatch hcall
  within := Nat.le_refl 0
  all := fun _ => rfl
  reads := rfl
  unfinished := fun _ hop => nomatch hop
  flushed := fun _ => rfl
  reading := fun h => nomatch h
  fresh := fun _ => rfl
  live := fun h => nomatch h
  closing := fun h => nomatch h
  enrolled := fun h => nomatch h

-- ── The error ────────────────────────────────────────────────────────────────

/-- After the error was raised. -/
def raised (error : Error) (c : ConnectionImpl) : ConnectionImpl :=
  { c with
    error := some error
    readCallbacks := c.readCallbacks
      ++ c.readOperations.map (StreamReadOperation.callbackFromLoop (some error))
    readOperations := []
    handle := { c.handle with closing := true, reading := false } }

/-- A second error is ignored. -/
theorem setError_again {error : Error} (herror : c.error ≠ none) :
    c.setError error = some c := by
  rw [setError, if_pos (Option.isSome_iff_ne_none.mpr herror)]

/-- The first error is set and handled. -/
theorem setError_first {error : Error} (herror : c.error = none)
    (hclosing : c.handle.closing = false) : c.setError error = some (c.raised error) := by
  have hclose : c.handle.closeFromLoop
      = some { c.handle with closing := true, reading := false } := by
    rw [TCPHandle.closeFromLoop, hclosing]
    rfl
  have hisSome : ¬ c.error.isSome = true := by rw [herror]; exact Bool.false_ne_true
  rw [setError, if_neg hisSome, handleErrorImpl]
  show c.handle.closeFromLoop.map _ = _
  rw [hclose]
  rfl

/-- Nothing is asked of a connection as it was made once it is initialised. -/
theorem not_fresh {P : Prop} (hinit : c.initialized = true) (hfalse : c.initialized = false) : P :=
  absurd (hinit.symm.trans hfalse) Bool.noConfusion

/-- The first error keeps the connection in order. -/
theorem kept_raised (h : Kept c) (error : Error) (hinit : c.initialized = true)
    (herror : c.error = none) : Kept (c.raised error) where
  inFlight := h.inFlight
  submitted := h.submitted
  numbered := h.numbered
  answered := h.answered
  refused := h.refused
  late := fun call hcall hle => absurd herror (h.late call hcall hle).1
  within := h.within
  all := fun hnone => nomatch hnone
  reads := by
    have hids : (c.raised error).readAnswers
        = c.readAnswers ++ c.readOperations.map Prod.fst := by
      rw [readAnswers, readAnswers, raised, List.map_append, List.map_map]
      rfl
    rw [hids]
    exact (List.append_nil _).trans h.reads
  unfinished := fun _ hop => nomatch hop
  flushed := fun _ => rfl
  reading := fun hreading => nomatch hreading
  fresh := not_fresh hinit
  live := fun _ hnone => nomatch hnone
  closing := fun _ => ⟨Option.some_ne_none error, (h.live hinit herror).1⟩
  enrolled := h.enrolled

/-- When the error is raised, every read that was pending is answered with it; from then on
    nothing is submitted any more. -/
structure Follows (c c' : ConnectionImpl) : Prop where
  flushes : c.error = none → c'.error ≠ none →
    c'.readCallbacks
      = c.readCallbacks ++ c.readOperations.map (StreamReadOperation.callbackFromLoop c'.error)
  silent : c.error ≠ none → c'.handle.submitted = c.handle.submitted

/-- What each step does, whenever it can come. -/
def Carries (c : ConnectionImpl) (result : Option ConnectionImpl) : Prop :=
  ∃ c', result = some c' ∧ Kept c' ∧ Follows c c'

/-- A step that raises no error and, in error, submits nothing. -/
theorem carries_same (h : Kept c') (herror : c'.error = c.error)
    (hsubmitted : c.error ≠ none → c'.handle.submitted = c.handle.submitted) :
    Carries c (some c') :=
  ⟨c', rfl, h, fun hnone hsome => absurd (herror.trans hnone) hsome, hsubmitted⟩

/-- An error leaves the connection in order. -/
theorem carries_setError (h : Kept c) (error : Error) (hinit : c.initialized = true) :
    Carries c (c.setError error) := by
  by_cases herror : c.error = none
  · rw [setError_first herror (h.live hinit herror).2]
    exact ⟨c.raised error, rfl, kept_raised h error hinit herror, fun _ _ => rfl, fun _ => rfl⟩
  · rw [setError_again herror]
    exact carries_same h rfl (fun _ => rfl)

-- ── Steps of the user ────────────────────────────────────────────────────────

/-- The initialisation leaves the connection in order. -/
theorem init_carries (h : Kept c) (closed sockaddr : Bool) (hfresh : c.initialized = false) :
    Carries c (c.initFromLoop closed sockaddr) := by
  rw [h.fresh hfresh]
  cases closed with
  | true =>
      refine ⟨{ initialized := true, error := some .ConnectionClosedError }, rfl, ?_,
        fun _ _ => rfl, fun _ => rfl⟩
      exact {
        inFlight := rfl, submitted := rfl, numbered := rfl, answered := rfl, refused := rfl
        late := fun _ hcall => nomatch hcall
        within := Nat.le_refl 0
        all := fun hnone => nomatch hnone
        reads := rfl
        unfinished := fun _ hop => nomatch hop
        flushed := fun _ => rfl
        reading := fun hreading => nomatch hreading
        fresh := fun hfalse => nomatch hfalse
        live := fun _ hnone => nomatch hnone
        closing := fun hclosing => nomatch hclosing
        enrolled := fun harmed => nomatch harmed }
  | false =>
      refine ⟨{
        initialized := true
        enrolled := true
        handle := { armed := true, connecting := sockaddr } }, ?_, ?_, fun _ hsome => ?_,
        fun _ => rfl⟩
      · cases sockaddr <;> rfl
      · exact {
          inFlight := rfl, submitted := rfl, numbered := rfl, answered := rfl, refused := rfl
          late := fun _ hcall => nomatch hcall
          within := Nat.le_refl 0
          all := fun _ => rfl
          reads := rfl
          unfinished := fun _ hop => nomatch hop
          flushed := fun _ => rfl
          reading := fun hreading => nomatch hreading
          fresh := fun hfalse => nomatch hfalse
          live := fun _ _ => ⟨rfl, rfl⟩
          closing := fun hclosing => nomatch hclosing
          enrolled := fun _ _ => rfl }
      · exact absurd rfl hsome

/-- A read that libuv is to serve. -/
theorem kept_read (h : Kept c) (buffer : Option (List UInt8)) (hinit : c.initialized = true)
    (herror : c.error = none) (handle : TCPHandle)
    (hhandle : handle = c.handle ∨ handle = { c.handle with reading := true }) :
    Kept { c with
      nextBufferBeingRead := c.nextBufferBeingRead + 1
      readOperations := c.readOperations ++ [(c.nextBufferBeingRead, .make buffer)]
      handle } := by
  have hkept : Kept { c with
      nextBufferBeingRead := c.nextBufferBeingRead + 1
      readOperations := c.readOperations ++ [(c.nextBufferBeingRead, .make buffer)] } :=
    { h with
      reads := by
        show c.readAnswers ++ (c.readOperations ++ [_]).map Prod.fst = _
        rw [List.map_append, ← List.append_assoc, h.reads]
        exact List.range_succ.symm
      unfinished := by
        intro op hop
        rcases List.mem_append.mp hop with hold | hnew
        · exact h.unfinished op hold
        · rw [List.mem_singleton.mp hnew]
          cases buffer <;> rfl
      flushed := fun hsome => absurd herror hsome
      reading := fun _ => List.append_ne_nil_of_right_ne_nil _ (List.cons_ne_nil _ _)
      fresh := not_fresh hinit }
  rcases hhandle with rfl | rfl
  · exact hkept
  · exact { hkept with
      reading := fun _ => List.append_ne_nil_of_right_ne_nil _ (List.cons_ne_nil _ _)
      fresh := not_fresh hinit }

/-- A call of `read` leaves the connection in order. -/
theorem read_carries (h : Kept c) (buffer : Option (List UInt8)) (hinit : c.initialized = true) :
    Carries c (c.readFromLoop buffer) := by
  rw [readFromLoop]
  by_cases herror : c.error = none
  · have hisSome : ¬ c.error.isSome = true := by rw [herror]; exact Bool.false_ne_true
    obtain ⟨harmed, hclosing⟩ := h.live hinit herror
    have hstart : c.handle.readStartFromLoop = some { c.handle with reading := true } := by
      rw [TCPHandle.readStartFromLoop, if_neg]
      rw [harmed, hclosing]
      decide
    rw [if_neg hisSome, readImplFromLoop]
    dsimp only
    by_cases hfirst : (c.readOperations ++ [(c.nextBufferBeingRead,
        StreamReadOperation.make buffer)]).length = 1
    · rw [if_pos hfirst, hstart]
      exact carries_same (kept_read h buffer hinit herror _ (.inr rfl)) rfl (fun _ => rfl)
    · rw [if_neg hfirst]
      exact carries_same (kept_read h buffer hinit herror _ (.inl rfl)) rfl (fun _ => rfl)
  · rw [if_pos (Option.isSome_iff_ne_none.mpr herror)]
    refine carries_same { h with
      all := fun hnone => absurd hnone herror
      reads := ?_
      fresh := not_fresh hinit } rfl (fun _ => rfl)
    have hreads := h.reads
    rw [h.flushed herror] at hreads ⊢
    show (c.readCallbacks ++ [_]).map ReadCall.id ++ [] = _
    rw [List.append_nil, List.map_append, List.range_succ, ← hreads]
    exact congrArg (· ++ [c.nextBufferBeingRead]) (List.append_nil _).symm

/-- Before the error no write is answered but by libuv. -/
theorem Kept.answers_handed (h : Kept c) (herror : c.error = none) :
    ∀ i ∈ c.writeAnswers, i < c.handed := by
  have hnone := h.refused
  rw [h.all herror, Nat.sub_self, List.range'_zero, List.filter_eq_nil_iff] at hnone
  intro i hi
  rw [h.all herror]
  exact Nat.not_le.mp (fun hle => hnone i hi (decide_eq_true hle))

/-- A new write keeps the connection in order. -/
theorem kept_write (h : Kept c) (p : Payload) (hinit : c.initialized = true)
    (herror : c.error = none) :
    Kept { c with
      nextBufferBeingWritten := c.nextBufferBeingWritten + 1
      writeOperations := c.writeOperations ++ [(c.nextBufferBeingWritten, p)]
      handle := { c.handle with
        submitted := c.handle.submitted ++ [Payload.request (c.nextBufferBeingWritten, p)]
        requests := c.handle.requests ++ [Payload.request (c.nextBufferBeingWritten, p)] } } := by
  have hall := h.all herror
  have hhanded : (c.handle.submitted
      ++ [Payload.request (c.nextBufferBeingWritten, p)]).length = c.handed + 1 :=
    List.length_append
  exact { h with
    inFlight := by
      show c.handle.requests ++ [_] = (c.writeOperations ++ [_]).map Payload.request
      rw [List.map_append, h.inFlight]
      rfl
    submitted := by
      show c.handle.submitted ++ [_] = c.handle.completed ++ (c.handle.requests ++ [_])
      rw [h.submitted, List.append_assoc]
    numbered := by
      rw [handed, hhanded, List.map_append, h.numbered, List.range_succ, hall]
      rfl
    answered := by
      rw [handed, hhanded, ← h.answered]
      refine List.filter_congr (fun i hi => decide_eq_decide.mpr ?_)
      have hlt := h.answers_handed herror i hi
      exact ⟨fun _ => hlt, fun _ => Nat.lt_succ_of_lt hlt⟩
    refused := by
      rw [handed, hhanded, hall, Nat.sub_self, List.range'_zero, List.filter_eq_nil_iff]
      intro i hi hle
      have hlt := h.answers_handed herror i hi
      have hle' := of_decide_eq_true hle
      omega
    late := by
      intro call hcall hle
      rw [handed, hhanded] at hle
      exact absurd herror (h.late call hcall (Nat.le_of_succ_le hle)).1
    within := by rw [handed, hhanded]; exact Nat.succ_le_succ h.within
    all := fun _ => by rw [handed, hhanded, hall]
    fresh := not_fresh hinit
    live := h.live
    closing := h.closing
    reading := h.reading
    enrolled := h.enrolled }

/-- A write that comes after the error. -/
theorem kept_refuse (h : Kept c) (hinit : c.initialized = true) (herror : c.error ≠ none) :
    Kept { c with
      nextBufferBeingWritten := c.nextBufferBeingWritten + 1
      writeCallbacks := c.writeCallbacks ++ [⟨c.nextBufferBeingWritten, c.error⟩] } where
  inFlight := h.inFlight
  submitted := h.submitted
  numbered := h.numbered
  answered := by
    show ((c.writeCallbacks ++ [_]).map WriteCall.id).filter (· < c.handed) = _
    have hnot : ([c.nextBufferBeingWritten] : List Nat).filter (· < c.handed) = [] :=
      List.filter_cons_of_neg (by
        rw [decide_eq_true_iff]
        exact Nat.not_lt.mpr h.within)
    rw [List.map_append, List.filter_append]
    show c.writeAnswers.filter _ ++ [c.nextBufferBeingWritten].filter _ = _
    rw [h.answered, hnot, List.append_nil]
  refused := by
    show ((c.writeCallbacks ++ [_]).map WriteCall.id).filter (c.handed ≤ ·)
      = List.range' c.handed (c.nextBufferBeingWritten + 1 - c.handed)
    have hin : ([c.nextBufferBeingWritten] : List Nat).filter (c.handed ≤ ·)
        = [c.nextBufferBeingWritten] :=
      List.filter_cons_of_pos (decide_eq_true h.within)
    have hend : c.handed + (c.nextBufferBeingWritten - c.handed) = c.nextBufferBeingWritten :=
      Nat.add_sub_cancel' h.within
    rw [List.map_append, List.filter_append, Nat.succ_sub h.within, List.range'_1_concat, hend]
    show c.writeAnswers.filter _ ++ [c.nextBufferBeingWritten].filter _ = _
    rw [h.refused, hin]
  late := by
    intro call hcall hle
    rcases List.mem_append.mp hcall with hold | hnew
    · exact h.late call hold hle
    · rw [List.mem_singleton.mp hnew]
      exact ⟨herror, rfl⟩
  within := Nat.le_succ_of_le h.within
  all := fun hnone => absurd hnone herror
  reads := h.reads
  unfinished := h.unfinished
  flushed := h.flushed
  reading := h.reading
  fresh := not_fresh hinit
  live := h.live
  closing := h.closing
  enrolled := h.enrolled

/-- A call of `write` leaves the connection in order. -/
theorem write_carries (h : Kept c) (p : Payload) (hinit : c.initialized = true) :
    Carries c (c.writeFromLoop p) := by
  rw [writeFromLoop]
  by_cases herror : c.error = none
  · have hisSome : ¬ c.error.isSome = true := by rw [herror]; exact Bool.false_ne_true
    have hwrite (request : WriteRequest) : c.handle.writeFromLoop request = some { c.handle with
        submitted := c.handle.submitted ++ [request]
        requests := c.handle.requests ++ [request] } := by
      rw [TCPHandle.writeFromLoop, if_neg]
      rw [(h.live hinit herror).2]
      exact Bool.false_ne_true
    rw [if_neg hisSome, writeImplFromLoop]
    dsimp only
    rw [hwrite]
    exact carries_same (kept_write h p hinit herror) rfl (absurd herror)
  · rw [if_pos (Option.isSome_iff_ne_none.mpr herror)]
    exact carries_same (kept_refuse h hinit herror) rfl (fun _ => rfl)

-- ── Steps of libuv ───────────────────────────────────────────────────────────

/-- Only a new connection is not initialised. -/
theorem Kept.initialized (h : Kept c) (hne : c ≠ {}) : c.initialized = true := by
  by_contra hfalse
  exact hne (h.fresh (eq_false_of_ne_true hfalse))

/-- The end of the connect leaves the connection in order. -/
theorem connected_carries (h : Kept c) (status : Int) (hconnecting : c.handle.connecting = true) :
    Carries c (c.step (.connected status)) := by
  have hinit : c.initialized = true := by
    refine h.initialized ?_
    rintro rfl
    exact nomatch hconnecting
  have hkept : Kept { c with handle := { c.handle with connecting := false } } :=
    { h with fresh := not_fresh hinit }
  rw [step, connectCallbackFromLoop]
  by_cases hstatus : status < 0
  · rw [if_pos hstatus]
    obtain ⟨c', hset, hkept', hfollows⟩ := carries_setError hkept (.UVError status) hinit
    exact ⟨c', hset, hkept', hfollows.flushes, hfollows.silent⟩
  · rw [if_neg hstatus]
    exact carries_same hkept rfl (fun _ => rfl)

/-- An operation that is not complete takes what it is fed. -/
theorem feed_open {op : StreamReadOperation} (hopen : op.completeFromLoop = false)
    (bytes : List UInt8) : ∃ op', op.feed bytes = some op' := by
  have hstored (offer : Offer) : (op.store offer bytes).mode = op.mode := by
    rw [StreamReadOperation.store]
    cases offer.region <;> rfl
  rw [StreamReadOperation.feed, StreamReadOperation.allocFromLoop]
  cases hmode : op.mode with
  | READ_LENGTH =>
      show ∃ op', StreamReadOperation.readFromLoop _ (op.store _ bytes) = some op'
      rw [StreamReadOperation.readFromLoop, hstored, hmode]
      dsimp only
      split <;> exact ⟨_, rfl⟩
  | READ_PAYLOAD =>
      show ∃ op', StreamReadOperation.readFromLoop _ (op.store _ bytes) = some op'
      rw [StreamReadOperation.readFromLoop, hstored, hmode]
      dsimp only
      split <;> exact ⟨_, rfl⟩
  | COMPLETE =>
      rw [StreamReadOperation.completeFromLoop, hmode] at hopen
      exact absurd hopen (by simp)

/-- Bytes that arrive are carried by the connection. -/
theorem readable_carries (h : Kept c) (bytes : List UInt8) (hreading : c.handle.reading = true) :
    Carries c (c.readCallbackFromLoop bytes) := by
  have hinit : c.initialized = true := by
    refine h.initialized ?_
    rintro rfl
    exact nomatch hreading
  obtain ⟨⟨fn, op⟩, rest, hqueue⟩ := List.exists_cons_of_ne_nil (h.reading hreading)
  have hlive : c.error = none := by
    by_contra herror
    exact h.reading hreading (h.flushed herror)
  have hreads := h.reads
  have hopen := h.unfinished
  rw [hqueue] at hreads hopen
  obtain ⟨op', hfeed⟩ := feed_open (hopen (fn, op) (List.mem_cons_self ..)) bytes
  rw [readCallbackFromLoop, hqueue]
  dsimp only
  rw [hfeed, Option.map_some]
  cases hcomplete : op'.completeFromLoop with
  | true =>
      have hids : (c.readCallbacks
          ++ [StreamReadOperation.callbackFromLoop none (fn, op')]).map ReadCall.id
            ++ rest.map Prod.fst
          = List.range c.nextBufferBeingRead := by
        rw [List.map_append, List.append_assoc, ← hreads]
        rfl
      have hrest : ∀ op ∈ rest, op.2.completeFromLoop = false :=
        fun op hop => hopen op (List.mem_cons_of_mem _ hop)
      rw [if_pos rfl]
      cases rest with
      | nil =>
          exact carries_same { h with
            reads := hids
            unfinished := hrest
            flushed := fun _ => rfl
            reading := fun hread => nomatch hread
            fresh := not_fresh hinit } rfl (fun _ => rfl)
      | cons next rest =>
          exact carries_same { h with
            reads := hids
            unfinished := hrest
            flushed := fun hsome => absurd hlive hsome
            reading := fun _ => List.cons_ne_nil _ _
            fresh := not_fresh hinit } rfl (fun _ => rfl)
  | false =>
      rw [if_neg Bool.false_ne_true]
      refine carries_same { h with
        reads := hreads
        unfinished := ?_
        flushed := fun hsome => absurd hlive hsome
        reading := fun _ => List.cons_ne_nil _ _
        fresh := not_fresh hinit } rfl (fun _ => rfl)
      intro op hop
      rcases List.mem_cons.mp hop with rfl | hrest
      · exact hcomplete
      · exact hopen op (List.mem_cons_of_mem _ hrest)

/-- The front write is answered when its request is done with. -/
theorem kept_answer (h : Kept c) {op : Nat × Payload} {rest : List (Nat × Payload)}
    (hqueue : c.writeOperations = op :: rest) (error : Option Error) :
    Kept { c with
      writeOperations := rest
      writeCallbacks := c.writeCallbacks ++ [Payload.callbackFromLoop error op]
      handle := c.handle.uvWriteCb } := by
  have hinit : c.initialized = true := by
    refine h.initialized ?_
    rintro rfl
    exact nomatch hqueue
  have hrequests : c.handle.requests = Payload.request op :: rest.map Payload.request := by
    rw [h.inFlight, hqueue]
    rfl
  have hhandle : c.handle.uvWriteCb = { c.handle with
      requests := rest.map Payload.request
      completed := c.handle.completed ++ [Payload.request op] } := by
    rw [TCPHandle.uvWriteCb, hrequests]
  have hlt : op.1 < c.handed := by
    have hmem : op.1 ∈ c.handle.submitted.map WriteRequest.id := by
      refine List.mem_map.mpr ⟨Payload.request op, ?_, rfl⟩
      rw [h.submitted, hrequests]
      exact List.mem_append_right _ (List.mem_cons_self ..)
    rw [h.numbered] at hmem
    exact List.mem_range.mp hmem
  rw [hhandle]
  exact { h with
    inFlight := rfl
    submitted := by
      show c.handle.submitted = (c.handle.completed ++ [_]) ++ _
      rw [h.submitted, hrequests, List.append_assoc]
      rfl
    answered := by
      show ((c.writeCallbacks ++ [_]).map WriteCall.id).filter (· < c.handed)
        = (c.handle.completed ++ [_]).map WriteRequest.id
      have hin : ([op.1] : List Nat).filter (· < c.handed) = [op.1] :=
        List.filter_cons_of_pos (decide_eq_true hlt)
      rw [List.map_append, List.filter_append, List.map_append, ← h.answered]
      exact congrArg (c.writeAnswers.filter (· < c.handed) ++ ·) hin
    refused := by
      show ((c.writeCallbacks ++ [_]).map WriteCall.id).filter (c.handed ≤ ·)
        = List.range' c.handed (c.nextBufferBeingWritten - c.handed)
      have hnot : ([op.1] : List Nat).filter (c.handed ≤ ·) = [] :=
        List.filter_cons_of_neg (by
          rw [decide_eq_true_iff]
          exact Nat.not_le.mpr hlt)
      rw [List.map_append, List.filter_append, ← h.refused]
      show c.writeAnswers.filter _ ++ [op.1].filter _ = _
      rw [hnot, List.append_nil]
    late := by
      intro call hcall hle
      rcases List.mem_append.mp hcall with hold | hnew
      · exact h.late call hold hle
      · rw [List.mem_singleton.mp hnew] at hle
        exact absurd hlt (Nat.not_lt.mpr hle)
    fresh := not_fresh hinit }

/-- A completed write leaves the connection in order. -/
theorem written_carries (h : Kept c) (status : Int) (hrequests : c.handle.requests ≠ []) :
    Carries c (c.step (.written status)) := by
  obtain ⟨op, rest, hqueue⟩ : ∃ op rest, c.writeOperations = op :: rest := by
    refine List.exists_cons_of_ne_nil (fun hnil => hrequests ?_)
    rw [h.inFlight, hnil]
    rfl
  have hinit : c.initialized = true := by
    refine h.initialized ?_
    rintro rfl
    exact hrequests rfl
  obtain ⟨hclosing, hsubmitted⟩ : c.handle.uvWriteCb.closing = c.handle.closing
      ∧ c.handle.uvWriteCb.submitted = c.handle.submitted := by
    rw [TCPHandle.uvWriteCb]
    split <;> exact ⟨rfl, rfl⟩
  rw [step, writeCallbackFromLoop]
  by_cases hraise : status < 0 ∧ c.error = none
  · -- the error is raised from within the callback
    obtain ⟨hstatus, herror⟩ := hraise
    have hset : { c with handle := c.handle.uvWriteCb }.setError (.UVError status)
        = some ({ c with handle := c.handle.uvWriteCb }.raised (.UVError status)) :=
      setError_first herror (hclosing.trans (h.live hinit herror).2)
    rw [if_pos hstatus, hset, Option.bind_some]
    show Carries c (match c.writeOperations with | [] => none | op :: rest => _)
    rw [hqueue]
    exact ⟨_, rfl, kept_raised (kept_answer h hqueue (some (.UVError status))) _ hinit herror,
      fun _ _ => rfl, fun hsome => absurd herror hsome⟩
  · have hset : (if status < 0 then
          { c with handle := c.handle.uvWriteCb }.setError (.UVError status)
        else some { c with handle := c.handle.uvWriteCb })
        = some { c with handle := c.handle.uvWriteCb } := by
      by_cases hstatus : status < 0
      · rw [if_pos hstatus]
        exact setError_again (fun hnone => hraise ⟨hstatus, hnone⟩)
      · exact if_neg hstatus
    rw [hset, Option.bind_some]
    show Carries c (match c.writeOperations with | [] => none | op :: rest => _)
    rw [hqueue]
    exact carries_same (kept_answer h hqueue c.error) rfl (fun _ => hsubmitted)

/-- The close of the handle leaves the connection in order. -/
theorem closed_carries (h : Kept c) (hclosing : c.handle.closing = true)
    (hopen : c.handle.closed = false) (hrequests : c.handle.requests = []) :
    Carries c (c.step .closed) := by
  obtain ⟨-, harmed⟩ := h.closing hclosing
  have hqueue : c.writeOperations = [] := by
    have hmap := h.inFlight
    rw [hrequests] at hmap
    exact List.map_eq_nil_iff.mp hmap.symm
  have hinit : c.initialized = true := by
    refine h.initialized ?_
    rintro rfl
    exact nomatch hclosing
  rw [step, closeCallbackFromLoop, if_pos ⟨List.isEmpty_iff.mpr hqueue, h.enrolled harmed hopen⟩]
  exact carries_same { h with
    fresh := not_fresh hinit
    enrolled := fun _ hfalse => nomatch hfalse } rfl (fun _ => rfl)

-- ── What the write callbacks are told ────────────────────────────────────────

/-- The error that a step raises, unless there is one. -/
def Step.error : Step → Option Error
  | .init contextClosed _ => if contextClosed then some .ConnectionClosedError else none
  | .close => some .ConnectionClosedError
  | .connected status => if status < 0 then some (.UVError status) else none
  | .readFailed status => some (.UVError status)
  | .written status => if status < 0 then some (.UVError status) else none
  | _ => none

/-- Whom a step answers, of the writes: one that comes after the error, at once; and the one
    whose request libuv is done with. -/
def told (c : ConnectionImpl) (error : Option Error) : Step → List WriteCall
  | .write _ => if c.error.isSome then [⟨c.nextBufferBeingWritten, error⟩] else []
  | .written _ => c.handle.requests.head?.toList.map (fun request => ⟨request.id, error⟩)
  | _ => []

/-- The first error stays, and the write callbacks that a step invokes are told it. -/
structure Tells (c : ConnectionImpl) (s : Step) (c' : ConnectionImpl) : Prop where
  error : c'.error = c.error.or s.error
  answers : c'.writeCallbacks = c.writeCallbacks ++ c.told c'.error s

/-- Setting an error answers no write. -/
theorem setError_told {error : Error} (hset : c.setError error = some c') :
    c'.error = c.error.or (some error) ∧ c'.writeCallbacks = c.writeCallbacks
      ∧ c'.writeOperations = c.writeOperations := by
  rw [setError] at hset
  cases herror : c.error with
  | some first =>
      rw [herror] at hset
      obtain rfl := Option.some.inj hset
      exact ⟨herror, rfl, rfl⟩
  | none =>
      rw [herror] at hset
      obtain ⟨handle, -, rfl⟩ := Option.map_eq_some_iff.mp hset
      exact ⟨rfl, rfl, rfl⟩

/-- A status of libuv raises an error if it is negative. -/
theorem status_told {status : Int}
    (hraise : (if status < 0 then c.setError (.UVError status) else some c) = some c') :
    c'.error = c.error.or (if status < 0 then some (.UVError status) else none)
      ∧ c'.writeCallbacks = c.writeCallbacks ∧ c'.writeOperations = c.writeOperations := by
  split at hraise
  · rename_i hstatus
    rw [if_pos hstatus]
    exact setError_told hraise
  · rename_i hstatus
    obtain rfl := Option.some.inj hraise
    rw [if_neg hstatus]
    exact ⟨Option.or_none.symm, rfl, rfl⟩

/-- A step that raises an error and answers no write. -/
theorem tells_setError {s : Step} {error : Error} (hset : c.setError error = some c')
    (hs : s.error = some error) (hnone : ∀ error, c.told error s = []) : Tells c s c' := by
  obtain ⟨herror, hsame, -⟩ := setError_told hset
  exact ⟨by rw [herror, hs], by rw [hsame, hnone, List.append_nil]⟩

/-- A step that does neither. -/
theorem tells_same {s : Step} (herror : c'.error = c.error)
    (hsame : c'.writeCallbacks = c.writeCallbacks) (hs : s.error = none)
    (hnone : ∀ error, c.told error s = []) : Tells c s c' :=
  ⟨by rw [herror, hs, Option.or_none], by rw [hsame, hnone, List.append_nil]⟩

/-- What the initialisation answers. -/
theorem tells_init (h : Kept c) {closed sockaddr : Bool} (hfresh : c.initialized = false)
    (hstep : c.step (.init closed sockaddr) = some c') : Tells c (.init closed sockaddr) c' := by
  rw [h.fresh hfresh] at hstep ⊢
  cases closed with
  | true =>
      obtain rfl := Option.some.inj hstep
      exact ⟨rfl, rfl⟩
  | false =>
      obtain ⟨handle, -, rfl⟩ := Option.map_eq_some_iff.mp hstep
      exact ⟨rfl, rfl⟩

/-- What a call of `read` answers. -/
theorem tells_read {buffer : Option (List UInt8)} (hstep : c.step (.read buffer) = some c') :
    Tells c (.read buffer) c' := by
  rw [step, readFromLoop] at hstep
  split at hstep
  · obtain rfl := Option.some.inj hstep
    exact tells_same rfl rfl rfl (fun _ => rfl)
  · rw [readImplFromLoop] at hstep
    dsimp only at hstep
    split at hstep
    · obtain ⟨handle, -, rfl⟩ := Option.map_eq_some_iff.mp hstep
      exact tells_same rfl rfl rfl (fun _ => rfl)
    · obtain rfl := Option.some.inj hstep
      exact tells_same rfl rfl rfl (fun _ => rfl)

/-- What a call of `write` answers. -/
theorem tells_write {p : Payload} (hstep : c.step (.write p) = some c') :
    Tells c (.write p) c' := by
  rw [step, writeFromLoop] at hstep
  split at hstep
  · rename_i hsome
    obtain rfl := Option.some.inj hstep
    refine ⟨Option.or_none.symm, ?_⟩
    rw [told, if_pos hsome]
  · rename_i hnone
    obtain ⟨handle, -, rfl⟩ := Option.map_eq_some_iff.mp hstep
    refine ⟨Option.or_none.symm, ?_⟩
    rw [told, if_neg hnone, List.append_nil]

/-- What bytes that arrive answer. -/
theorem tells_readable {bytes : List UInt8} (hstep : c.step (.readable bytes) = some c') :
    Tells c (.readable bytes) c' := by
  rw [step, readCallbackFromLoop] at hstep
  split at hstep
  · exact absurd hstep (by simp)
  · obtain ⟨op, -, rfl⟩ := Option.map_eq_some_iff.mp hstep
    split <;> exact tells_same rfl rfl rfl (fun _ => rfl)

/-- The write of the first request is answered, with the error that there is by then. -/
theorem tells_written (h : Kept c) {status : Int} (hstep : c.step (.written status) = some c') :
    Tells c (.written status) c' := by
  obtain ⟨c₁, hraise, hanswer⟩ := Option.bind_eq_some_iff.mp hstep
  obtain ⟨herror, hcallbacks, hqueue⟩ := status_told hraise
  rw [hqueue] at hanswer
  cases hops : c.writeOperations with
  | nil =>
      rw [hops] at hanswer
      exact absurd hanswer (by simp)
  | cons op rest =>
      rw [hops] at hanswer
      obtain rfl := Option.some.inj hanswer
      refine ⟨herror, ?_⟩
      rw [told, h.inFlight, hops]
      exact congrArg (· ++ _) hcallbacks

/-- What each step answers. -/
theorem step_tells (h : Kept c) {s : Step} (henabled : c.enabled s) (hstep : c.step s = some c') :
    Tells c s c' := by
  cases s with
  | init closed sockaddr => exact tells_init h henabled hstep
  | read buffer => exact tells_read hstep
  | write p => exact tells_write hstep
  | close => exact tells_setError hstep rfl (fun _ => rfl)
  | connected status =>
      obtain ⟨herror, hcallbacks, -⟩ := status_told hstep
      exact ⟨herror, hcallbacks.trans (List.append_nil _).symm⟩
  | readable bytes => exact tells_readable hstep
  | readFailed status => exact tells_setError hstep rfl (fun _ => rfl)
  | written status => exact tells_written h hstep
  | closed =>
      rw [step, closeCallbackFromLoop] at hstep
      split at hstep
      · obtain rfl := Option.some.inj hstep
        exact tells_same rfl rfl rfl (fun _ => rfl)
      · exact absurd hstep (by simp)

-- ── Whole runs ───────────────────────────────────────────────────────────────

/-- Every step leaves the connection in order. -/
theorem step_carries (h : Kept c) (s : Step) (henabled : c.enabled s) :
    Carries c (c.step s) := by
  cases s with
  | init closed sockaddr => exact init_carries h closed sockaddr henabled
  | read buffer => exact read_carries h buffer henabled
  | write p => exact write_carries h p henabled
  | close => exact carries_setError h _ henabled
  | connected status => exact connected_carries h status henabled
  | readable bytes => exact readable_carries h bytes henabled.1
  | readFailed status =>
      refine carries_setError h _ (h.initialized ?_)
      rintro rfl
      exact nomatch henabled.1
  | written status => exact written_carries h status henabled
  | closed => exact closed_carries h henabled.1 henabled.2.1 henabled.2.2

/-- Every connection that can be reached is in order. -/
theorem Reachable.kept (h : Reachable c) : Kept c := by
  induction h with
  | init => exact kept_init
  | step _ s henabled hstep ih =>
      obtain ⟨c', hsome, hkept, -⟩ := step_carries ih s henabled
      cases hstep.symm.trans hsome
      exact hkept

/-- What every state has.  A write that was `handed` to libuv is answered when its request is
    done with, in the order of the writes; one that came after the error is answered with the
    error, and no request was made for it. -/
structure Answered (c : ConnectionImpl) : Prop where
  counted : c.writeOperations.length = c.handle.requests.length
  own : c.handle.requests = c.writeOperations.map Payload.request
  inOrder : c.writeAnswers.filter (· < c.handed) = List.range c.handle.completed.length
  completed : c.handle.completed.map WriteRequest.id = List.range c.handle.completed.length
  once : ∀ i, c.writeAnswers.count i
    = if i < c.nextBufferBeingWritten ∧ i ∉ c.handle.requests.map WriteRequest.id then 1 else 0
  refused : c.writeAnswers.filter (c.handed ≤ ·)
    = List.range' c.handed (c.nextBufferBeingWritten - c.handed)
  late : ∀ call ∈ c.writeCallbacks, c.handed ≤ call.id → c.error ≠ none ∧ call.error = c.error
  healthy : c.error = none → c.handed = c.nextBufferBeingWritten
  reads : c.readAnswers ++ c.readOperations.map Prod.fst = List.range c.nextBufferBeingRead
  flushed : c.error ≠ none → c.readOperations = []
  closed : c.enabled .closed → c.writeOperations = []

/-- The writes have completed in order, from the first. -/
theorem Kept.completed_ids (h : Kept c) :
    c.handle.completed.map WriteRequest.id = List.range c.handle.completed.length := by
  have hnumbered := h.numbered
  have hsplit : c.handed = c.handle.completed.length + c.handle.requests.length := by
    rw [handed, h.submitted, List.length_append]
  rw [hsplit, List.range_add, h.submitted, List.map_append] at hnumbered
  refine (List.append_inj hnumbered ?_).1
  rw [List.length_map, List.length_range]

/-- How often a write was answered. -/
theorem Kept.count_answers (h : Kept c) (i : Nat) : c.writeAnswers.count i
    = if i < c.nextBufferBeingWritten ∧ i ∉ c.handle.requests.map WriteRequest.id
      then 1 else 0 := by
  have hwithin := h.within
  have hsplit : (List.range c.handed).count i
      = (c.handle.completed.map WriteRequest.id).count i
        + (c.handle.requests.map WriteRequest.id).count i := by
    rw [← h.numbered, h.submitted, List.map_append, List.count_append]
  rw [List.count_range] at hsplit
  by_cases hi : i < c.handed
  · have hcount : c.writeAnswers.count i = (c.handle.completed.map WriteRequest.id).count i := by
      rw [← h.answered, List.count_filter]
      exact decide_eq_true hi
    rw [if_pos hi] at hsplit
    by_cases hpending : i ∈ c.handle.requests.map WriteRequest.id
    · have hpos := List.count_pos_iff.mpr hpending
      rw [hcount, if_neg (fun hand => hand.2 hpending)]
      omega
    · have hzero := List.count_eq_zero.mpr hpending
      rw [hcount, if_pos ⟨by omega, hpending⟩]
      omega
  · have hle := Nat.not_lt.mp hi
    have hnot : i ∉ c.handle.requests.map WriteRequest.id := by
      rw [if_neg hi] at hsplit
      exact List.count_eq_zero.mp (by omega)
    have hcount : c.writeAnswers.count i
        = (List.range' c.handed (c.nextBufferBeingWritten - c.handed)).count i := by
      rw [← h.refused, List.count_filter]
      exact decide_eq_true hle
    rw [hcount, List.count_range_1']
    by_cases hnext : i < c.nextBufferBeingWritten
    · rw [if_pos ⟨hle, by omega⟩, if_pos ⟨hnext, hnot⟩]
    · rw [if_neg (by omega), if_neg (fun hand => hnext hand.1)]

/-- **Each write is answered exactly once**, in every run: in order and with its request, if
    libuv had it, and otherwise at once with the error.  The error answers every pending read;
    and no callback of libuv finds the connection unprepared. -/
theorem each_write_answered (h : Reachable c) :
    Answered c ∧ ∀ s, c.enabled s → ∃ c', c.step s = some c' ∧ Follows c c' ∧ Tells c s c' := by
  have hkept := h.kept
  constructor
  · exact {
      counted := by rw [hkept.inFlight, List.length_map]
      own := hkept.inFlight
      inOrder := hkept.answered.trans hkept.completed_ids
      completed := hkept.completed_ids
      once := hkept.count_answers
      refused := hkept.refused
      late := hkept.late
      healthy := hkept.all
      reads := hkept.reads
      flushed := hkept.flushed
      closed := by
        rintro ⟨-, -, hrequests⟩
        rw [hkept.inFlight] at hrequests
        exact List.map_eq_nil_iff.mp hrequests }
  · intro s henabled
    obtain ⟨c', hstep, -, hfollows⟩ := step_carries hkept s henabled
    exact ⟨c', hstep, hfollows, step_tells hkept henabled hstep⟩

/-- A payload of one byte. -/
def samplePayload : Payload := ⟨[7], by decide⟩

/-- Three writes, of which libuv is done with the first when the connection is closed; a fourth
    comes late, and then libuv is done with the second.  The third is still in flight. -/
theorem each_write_answered_late : ∃ c, Reachable c ∧ Answered c
    ∧ c.writeOperations = [(2, samplePayload)] ∧ c.writeCallbacks
      = [⟨0, none⟩, ⟨3, some .ConnectionClosedError⟩, ⟨1, some .ConnectionClosedError⟩] := by
  have hinit : Reachable _ := .step .init (.init false false) rfl rfl
  have hfirst : Reachable _ := .step hinit (.write samplePayload) rfl rfl
  have hsecond : Reachable _ := .step hfirst (.write samplePayload) rfl rfl
  have hthird : Reachable _ := .step hsecond (.write samplePayload) rfl rfl
  have hwritten : Reachable _ := .step hthird (.written 0) (List.cons_ne_nil _ _) rfl
  have hclosed : Reachable _ := .step hwritten .close rfl rfl
  have hlate : Reachable _ := .step hclosed (.write samplePayload) rfl rfl
  have hrun : Reachable _ := .step hlate (.written 0) (List.cons_ne_nil _ _) rfl
  exact ⟨_, hrun, (each_write_answered hrun).1, rfl, rfl⟩

/-- Every write is answered when its own request is done with, and in order. -/
def InOrder (c : ConnectionImpl) : Prop :=
  c.writeAnswers = c.handle.completed.map WriteRequest.id ∧ c.writeAnswers.Pairwise (· < ·)

/-- A write that comes after the close is answered before one that libuv still has. -/
theorem late_write_overtakes : ¬ ∀ c, Reachable c → InOrder c := by
  intro hclaim
  have hinit : Reachable { initialized := true, enrolled := true, handle := { armed := true } } :=
    .step .init (.init false false) rfl rfl
  have hwrite : Reachable {
      initialized := true, enrolled := true, nextBufferBeingWritten := 1
      writeOperations := [(0, ⟨[], by decide⟩)]
      handle := {
        armed := true, submitted := [⟨0, [lengthBytes kLengthSize 0]⟩]
        requests := [⟨0, [lengthBytes kLengthSize 0]⟩] } } :=
    .step hinit (.write ⟨[], by decide⟩) rfl rfl
  have hclose : Reachable {
      initialized := true, enrolled := true, error := some .ConnectionClosedError
      nextBufferBeingWritten := 1
      writeOperations := [(0, ⟨[], by decide⟩)]
      handle := {
        armed := true, closing := true, submitted := [⟨0, [lengthBytes kLengthSize 0]⟩]
        requests := [⟨0, [lengthBytes kLengthSize 0]⟩] } } :=
    .step hwrite .close rfl rfl
  have hlate : Reachable {
      initialized := true, enrolled := true, error := some .ConnectionClosedError
      nextBufferBeingWritten := 2
      writeOperations := [(0, ⟨[], by decide⟩)]
      handle := {
        armed := true, closing := true, submitted := [⟨0, [lengthBytes kLengthSize 0]⟩]
        requests := [⟨0, [lengthBytes kLengthSize 0]⟩] }
      writeCallbacks := [⟨1, some .ConnectionClosedError⟩] } :=
    .step hclose (.write ⟨[], by decide⟩) rfl rfl
  cases (hclaim _ hlate).1

end ConnectionImpl

end TpUv
