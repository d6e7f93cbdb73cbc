import Mathlib.Tactic.Common
import Tensorpipe.PipeWriteInvariantProofs

/-! # Agreeing on the target devices

    The sender may leave the target device of a tensor open.  The receiver then lists the
    devices it allocated for such tensors in a reply, and the sender fills its gaps from it.

    Both sides work out on their own whether there is a reply at all, and which channel each
    tensor takes.  They agree: each tensor is looked up under one pair of devices, read in the
    two directions. -/

namespace TpPipe

open TpStateMachine TpMessage TpSelect

-- ── The two operations of a message ──────────────────────────────────────────

/-- What the callback of `readDescriptorOfMessage` does to the operation it captured. -/
def takeDescriptor (descriptor : Descriptor) (op : ReadOperation) : ReadOperation :=
  { op with
    doneReadingDescriptor := true
    descriptor := descriptor
    hasMissingTargetDevices :=
      op.hasMissingTargetDevices || descriptorHasMissingTargetDevices descriptor }

/-- What `readFromLoop` does to the operation that expects the allocation. -/
def takeAllocation (allocation : Allocation) (op : ReadOperation) : ReadOperation :=
  { op with allocation := allocation, doneGettingAllocation := true }

/-- What the callback of `readDescriptorReplyOfMessage` does to the operation it captured. -/
def takeTargets (tensors : List SentTensor) (op : WriteOperation) : WriteOperation :=
  { op with doneReadingDescriptorReply := true, tensors := tensors }

theorem onReadDone_descriptor {g : Gate} (hok : g.error = none) (n : Nat)
    (descriptor : Descriptor) (x : Reads) :
    onReadDone g (.descriptor n) descriptor x
      = advanceOperation (advanceReadOperation g)
          { x.1 with pending := x.1.pending.erase (.descriptor n) }
          (modifyOperation n (takeDescriptor descriptor) x.2) n := by
  simp only [onReadDone, hok, Option.isNone_none, if_true]
  rfl

theorem readFromLoop_accepted {g : Gate} {allocation : Allocation} {x : Reads} {n : Nat}
    {op : ReadOperation} (hnext : x.1.nextMessageGettingAllocation = some n)
    (hfind : x.2.find? (fun op => op.sequenceNumber == n) = some op)
    (hfits : checkAllocationCompatibility op.descriptor allocation = true) :
    readFromLoop g allocation x
      = advanceOperation (advanceReadOperation g)
          { x.1 with nextMessageGettingAllocation := none, accepted := x.1.accepted ++ [n] }
          (modifyOperation n (takeAllocation allocation) x.2) n := by
  simp only [readFromLoop, hnext, hfind, hfits, Bool.true_eq_false, if_false]
  rfl

/-- A read operation that was given a descriptor, and an allocation for it. -/
def answered (n : Nat) (descriptor : Descriptor) (allocation : Allocation) : ReadOperation :=
  takeAllocation allocation (takeDescriptor descriptor { sequenceNumber := n })

-- ── The reply ────────────────────────────────────────────────────────────────

/-- The two sides agree on whether there is a reply. -/
theorem flags_agree (m n : Nat) (message : Message) (allocation : Allocation) :
    (answered m (makeDescriptorForMessage message) allocation).hasMissingTargetDevices
      = (newWriteOperation n message).hasMissingTargetDevices :=
  makeDescriptor_missing message

/-- Where no target is open, the reply would be empty. -/
theorem reply_empty {message : Message} (allocation : Allocation)
    (h : messageHasMissingTargetDevices message = false) :
    (makeDescriptorReplyForMessage (makeDescriptorForMessage message) allocation).targetDevices
      = [] := by
  refine List.filterMap_eq_nil_iff.mpr (fun p hp => ?_)
  obtain ⟨tensor, htensor, hp1⟩ := List.mem_map.mp (List.of_mem_zip hp).1
  have hsome := List.any_eq_false.mp h tensor htensor
  rw [← hp1]
  cases ht : tensor.targetDevice with
  | none => rw [ht] at hsome; exact absurd rfl hsome
  | some device => rfl

/-- The reply fills every gap of the operation and is used up, so that the callback neither
    reads past its end nor fails the check behind the loop. -/
theorem onWriteDone_reply {g : Gate} (hok : g.error = none) {n : Nat} {x : Writes}
    {op : WriteOperation} {allocation : Allocation}
    (hfind : x.2.find? (fun op => op.sequenceNumber == n) = some op)
    (htensors : op.tensors = tensorsOfMessage op.message)
    (hfits : checkAllocationCompatibility (makeDescriptorForMessage op.message) allocation
      = true) :
    onWriteDone g (.descriptorReply n)
        (makeDescriptorReplyForMessage (makeDescriptorForMessage op.message) allocation) x
      = advanceOperation (advanceWriteOperation g)
          { x.1 with pending := x.1.pending.erase (.descriptorReply n) }
          (modifyOperation n (takeTargets (resolvedTensors op.message allocation)) x.2) n := by
  have hparse := parse_make_reply hfits
  rw [← htensors] at hparse
  simp only [onWriteDone, hfind, hok, Option.isSome_none, Bool.false_eq_true, if_false, hparse,
    List.isEmpty_nil, Bool.and_true]
  rfl

-- ── The channels ─────────────────────────────────────────────────────────────

/-- Under which pair of devices `sendTensorsOfMessage` looks up the channel of each tensor, if
    it has its target. -/
def sendKeys (op : WriteOperation) : List (Option (Device × Device)) :=
  op.tensors.map (fun sent =>
    sent.targetDevice.map (fun remoteDevice => (sent.sourceDevice, remoteDevice)))

/-- Under which pair of devices `receiveTensorsOfMessage` looks up the channel of each tensor. -/
def receiveKeys (op : ReadOperation) : List (Device × Device) :=
  (op.allocation.tensors.zip op.descriptor.tensors).map (fun p =>
    (p.1.buffer.device, p.2.sourceDevice))

/-- Each tensor is handed to the channel under its key. -/
theorem tensorSends_keys (g : Gate) (op : WriteOperation) :
    tensorSends g op = (op.message.tensors.zip (sendKeys op)).zipIdx.map (fun p =>
      .tensor ((p.1.2.bind g.channelForDevicePair.lookup).getD "") op.sequenceNumber p.2
        p.1.1.buffer p.1.1.length) := by
  rw [tensorSends, sendKeys, List.zip_map_right, List.zipIdx_map, List.map_map]
  refine List.map_congr_left (fun p _ => ?_)
  obtain ⟨⟨tensor, source, target⟩, i⟩ := p
  cases target with
  | none => rfl
  | some device => rfl

theorem tensorRecvs_keys (g : Gate) (op : ReadOperation) :
    tensorRecvs g op
      = ((op.allocation.tensors.zip op.descriptor.tensors).zip (receiveKeys op)).zipIdx.map
          (fun p => .tensor ((g.channelForDevicePair.lookup p.1.2).getD "") op.sequenceNumber p.2
            p.1.1.1.buffer p.1.1.2.length) := by
  have hself : ∀ l : List (Allocation.Tensor × Descriptor.Tensor),
      l.zip (l.map (fun p => (p.1.buffer.device, p.2.sourceDevice)))
        = l.map (fun p => (p, (p.1.buffer.device, p.2.sourceDevice))) := by
    intro l
    have hboth := List.zip_map' (l := l) (f := id)
      (g := fun p => (p.1.buffer.device, p.2.sourceDevice))
    rwa [List.map_id] at hboth
  rw [tensorRecvs, receiveKeys, hself, List.zipIdx_map, List.map_map]
  rfl

/-- With the targets of an allocation, the sender's keys are the receiver's, swapped. -/
theorem sendKeys_swapped (m n : Nat) (message : Message) (allocation : Allocation) :
    sendKeys (takeTargets (resolvedTensors message allocation) (newWriteOperation n message))
      = (receiveKeys (answered m (makeDescriptorForMessage message) allocation)).map
          (fun key => some key.swap) := by
  show (resolvedTensors message allocation).map _
    = ((allocation.tensors.zip (message.tensors.map _)).map _).map _
  rw [resolvedTensors, List.map_map, List.zip_map_right, List.map_map, List.map_map,
    ← List.zip_swap message.tensors allocation.tensors, List.map_map]
  rfl

-- ── The round trip ───────────────────────────────────────────────────────────

/-- The tensors of a write operation whose targets are the devices of an allocation. -/
def TargetsOf (allocation : Allocation) (tensors : List SentTensor) : Prop :=
  tensors.map SentTensor.targetDevice
    = allocation.tensors.map (fun tensor => some tensor.buffer.device)

theorem targetsOf_resolved {message : Message} {allocation : Allocation}
    (h : checkAllocationCompatibility (makeDescriptorForMessage message) allocation = true) :
    TargetsOf allocation (resolvedTensors message allocation) := by
  have hlen := compatible_message_tensors h
  have hsecond : (message.tensors.zip allocation.tensors).map Prod.snd = allocation.tensors :=
    List.map_snd_zip (Nat.le_of_eq hlen)
  rw [TargetsOf, resolvedTensors, List.map_map]
  conv => rhs; rw [← hsecond, List.map_map]
  rfl

/-- **The negotiation.**  For an allocation that fits the descriptor of a message, the sender's
    operation ends up with the receiver's devices as targets, with or without a reply; the two
    sides agree on whether there is one; the reply is used up; and every tensor takes the channel
    of the same devices on the two sides. -/
theorem negotiation_round_trip (m n : Nat) {message : Message} {allocation : Allocation}
    (h : checkAllocationCompatibility (makeDescriptorForMessage message) allocation = true) :
    (answered m (makeDescriptorForMessage message) allocation).hasMissingTargetDevices
        = (newWriteOperation n message).hasMissingTargetDevices
      ∧ (∃ tensors, parseDescriptorReplyOfMessage message.tensors
            (newWriteOperation n message).tensors
            (makeDescriptorReplyForMessage (makeDescriptorForMessage message)
              allocation).targetDevices = some (tensors, [])
          ∧ tensors.length = message.tensors.length
          ∧ TargetsOf allocation tensors
          ∧ ((newWriteOperation n message).hasMissingTargetDevices = false →
              (newWriteOperation n message).tensors = tensors)
          ∧ sendKeys (takeTargets tensors (newWriteOperation n message))
            = (receiveKeys (answered m (makeDescriptorForMessage message) allocation)).map
                (fun key => some key.swap)) := by
  refine ⟨flags_agree m n message allocation, resolvedTensors message allocation,
    parse_make_reply h, ?_, targetsOf_resolved h, fun hall => resolved_of_complete hall h,
    sendKeys_swapped m n message allocation⟩
  rw [resolvedTensors, List.length_map, List.length_zip, compatible_message_tensors h, Nat.min_self]

/-- Two tensors, the second of which the receiver may place where it likes. -/
theorem negotiation_of_two :
    ∃ tensors, parseDescriptorReplyOfMessage
      [⟨⟨0, ⟨"cpu", 0⟩⟩, 1, some ⟨"cuda", 1⟩, ""⟩, ⟨⟨8, ⟨"cuda", 0⟩⟩, 1, none, ""⟩]
      [⟨⟨"cpu", 0⟩, some ⟨"cuda", 1⟩⟩, ⟨⟨"cuda", 0⟩, none⟩] [⟨"cpu", 0⟩] = some (tensors, [])
      ∧ TargetsOf ⟨[], [⟨⟨16, ⟨"cuda", 1⟩⟩⟩, ⟨⟨24, ⟨"cpu", 0⟩⟩⟩]⟩ tensors := by
  let message : Message := ⟨"", [],
    [⟨⟨0, ⟨"cpu", 0⟩⟩, 1, some ⟨"cuda", 1⟩, ""⟩, ⟨⟨8, ⟨"cuda", 0⟩⟩, 1, none, ""⟩]⟩
  let allocation : Allocation := ⟨[], [⟨⟨16, ⟨"cuda", 1⟩⟩⟩, ⟨⟨24, ⟨"cpu", 0⟩⟩⟩]⟩
  have hfits : checkAllocationCompatibility (makeDescriptorForMessage message) allocation
      = true := by decide
  obtain ⟨-, tensors, hparse, -, htargets, -⟩ := negotiation_round_trip 0 0 hfits
  exact ⟨tensors, hparse, htargets⟩

end TpPipe
