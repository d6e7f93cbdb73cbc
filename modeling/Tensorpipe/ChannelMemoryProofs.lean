import Mathlib.Tactic.Common
import Tensorpipe.CopyChannelProofs
import Tensorpipe.MptChannelProofs

/-! # The CPU channels return memory once and never early

    A callback hands the memory of a tensor back to the user.  For the cma and the xth channel
    every callback is invoked once, when nothing works on that memory any more, and after an
    error none is missing once the outstanding calls have reported.

    The mpt channel shares the queue and the error handling, and there the walk over the
    operations can be CUT SHORT: before it is established a queue may hold an operation, then
    a finished one of length zero, then another operation.  The error finishes the first one,
    the second one is popped along with it, and the walk stops at its number. -/

namespace TpChannel

open TpStateMachine

variable {SendOp SendState SendCall RecvOp RecvState RecvCall : Type}
  [Operation SendOp SendState] [Operation RecvOp RecvState]

/-- Both halves of a channel are safe, and flushed when the error is set and no call is
    outstanding. -/
structure MemoryReturned (sendCaptures : SendCall → Option Nat)
    (recvCaptures : RecvCall → Option Nat) (error : Bool) (send : Side SendOp SendCall)
    (recv : Side RecvOp RecvCall) : Prop where
  sendSafe : SideSafe sendCaptures send
  recvSafe : SideSafe recvCaptures recv
  flushed : error = true → send.io.calls = [] → recv.io.calls = [] → Flushed send ∧ Flushed recv

theorem copy_memory_returned {D : Type} [DecidableEq D] {describe : Nat → D}
    {x : TpCopy.ChannelImpl D} (h : TpCopy.ChannelImpl.Reachable describe x) :
    MemoryReturned TpCopy.SendCall.captures TpCopy.RecvCall.captures x.error x.send x.recv := by
  obtain ⟨⟨_, -, hsend⟩, ⟨_, -, hrecv⟩⟩ := TpCopy.ChannelImpl.inv_reachable h
  refine ⟨sideSafe_of_sided (TpCopy.sendSound describe x.error).idle hsend.toSided,
    sideSafe_of_sided (TpCopy.recvSound x.error).idle hrecv.toSided, ?_⟩
  intro herror hsendCalls hrecvCalls
  rw [herror] at hsend hrecv
  exact ⟨flushed_of_rested hsend (fun _ _ => TpCopy.send_waits) hsendCalls,
    flushed_of_rested hrecv (fun _ _ => TpCopy.recv_waits) hrecvCalls⟩

/-- The calls of an mpt channel, all of which captured their operation. -/
def laneCaptures (call : TpMpt.LaneCall) : Option Nat := some call.sequenceNumber

theorem mpt_memory_returned {x : TpMpt.ChannelImpl}
    (h : TpMpt.ChannelImpl.Reachable TpMpt.ChannelImpl.Unbroken x) :
    MemoryReturned laneCaptures laneCaptures x.error x.send x.recv := by
  obtain ⟨⟨_, -, hsend, hsendStable⟩, ⟨_, -, hrecv, hrecvStable⟩⟩ :=
    TpMpt.ChannelImpl.inv_reachable True (fun _ _ _ hallowed => hallowed) h
  refine ⟨sideSafe_of_sided (TpMpt.laneSound x.gate).idle hsend,
    sideSafe_of_sided (TpMpt.laneSound x.gate).idle hrecv, ?_⟩
  intro herror hsendCalls hrecvCalls
  exact ⟨flushed_of_rested ⟨hsend, hsendStable trivial herror⟩
      (fun _ _ => TpMpt.lane_waits herror) hsendCalls,
    flushed_of_rested ⟨hrecv, hrecvStable trivial herror⟩
      (fun _ _ => TpMpt.lane_waits herror) hrecvCalls⟩

/-- The cma and xth channels return memory exactly once and never early, in every run; the
    mpt channel does so in every run in which the error finds both of its queues
    flushable. -/
theorem memory_returned_once (pid : UInt32) (cma : TpCopy.Cma.ChannelImpl)
    (xth : TpCopy.Xth.ChannelImpl) (mpt : TpMpt.ChannelImpl) :
    (TpCopy.ChannelImpl.Reachable (TpCopy.Cma.describe pid) cma →
      MemoryReturned TpCopy.SendCall.captures TpCopy.RecvCall.captures cma.error cma.send cma.recv)
    ∧ (TpCopy.ChannelImpl.Reachable TpCopy.Xth.describe xth →
      MemoryReturned TpCopy.SendCall.captures TpCopy.RecvCall.captures xth.error xth.send xth.recv)
    ∧ (TpMpt.ChannelImpl.Reachable TpMpt.ChannelImpl.Unbroken mpt →
      MemoryReturned laneCaptures laneCaptures mpt.error mpt.send mpt.recv) :=
  ⟨copy_memory_returned, copy_memory_returned, mpt_memory_returned⟩

/-- A client that is closed while it waits for the hello of the server, with these sends. -/
def closedClient (lengths : List Nat) : TpMpt.ChannelImpl :=
  (((lengths.foldl (fun x length => x.step (.send 0 length))
    (TpMpt.ChannelImpl.init false .kConnect 2 [] 0)).step .close).step
      (.serverHello true [⟨"", 0⟩, ⟨"", 1⟩] [0, 1]))

/-- Two sends before the hello: the error flushes both. -/
theorem memory_returned_once_closed :
    TpMpt.ChannelImpl.Reachable TpMpt.ChannelImpl.Unbroken (closedClient [8, 8])
      ∧ Flushed (closedClient [8, 8]).send := by
  have hreach : TpMpt.ChannelImpl.Reachable TpMpt.ChannelImpl.Unbroken (closedClient [8, 8]) := by
    refine .step (.step (.step (.step (.init false .kConnect 2 [] 0) (.send 0 8) trivial nofun)
      (.send 0 8) trivial nofun) .close trivial ?_) _ ?_ nofun
    · intro _ _
      exact ⟨Or.inr (by simp [TpMpt.ChannelImpl.step, TpMpt.ChannelImpl.sendFromLoop]; decide),
        Or.inr List.Pairwise.nil⟩
    · exact ⟨by decide, rfl, rfl⟩
  exact ⟨hreach, (((memory_returned_once 0 {} {} _).2.2 hreach).flushed (by decide) (by decide)
    (by decide)).1⟩

/-- With an empty tensor between two others, the error forgets the last one: nothing is
    outstanding, and its callback is never invoked. -/
theorem closed_client_forgets_send :
    ∃ x, TpMpt.ChannelImpl.Reachable (fun _ _ => True) x ∧ x.error = true ∧ x.hello.calls = []
      ∧ x.send.io.calls = [] ∧ x.recv.io.calls = [] ∧ x.send.ops ≠ []
      ∧ 2 ∉ x.send.io.callbacks.map Prod.fst := by
  refine ⟨closedClient [8, 0, 8], ?_, by decide, by decide, by decide, by decide, by decide,
    by decide⟩
  refine .step (.step (.step (.step (.step (.init false .kConnect 2 [] 0) (.send 0 8) trivial
    trivial) (.send 0 0) trivial trivial) (.send 0 8) trivial trivial) .close trivial trivial) _
    ⟨by decide, rfl, rfl⟩ trivial

end TpChannel
