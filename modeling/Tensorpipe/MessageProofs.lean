import Mathlib.Data.List.Basic
import Mathlib.Data.List.Zip
import Mathlib.Tactic.Common

/-! # Messages, descriptors, allocations — and the descriptor reply round trip

    The data a pipe moves: a `Message` as the sender gives it, the `Descriptor`
    that travels ahead of it, the `Allocation` with which the receiver answers,
    and the `DescriptorReply` that carries the target devices back when the
    sender left some of them open.

    The reply is positional: it lists devices for the tensors WITHOUT a target
    device, in tensor order, and the sender fills its gaps in the same order.
    `parse_make_reply` is the round trip: after parsing the reply that the
    receiver made from a compatible allocation, the sender's target devices are
    exactly the devices of that allocation. -/

namespace TpMessage

/-- A device: a type and an index. -/
structure Device where
  type : String
  index : Int
deriving DecidableEq, Repr

/-- A buffer: an address and the device it lives on. -/
structure Buffer where
  ptr : Nat
  device : Device
deriving DecidableEq, Repr

namespace Message

/-- A payload: where it lies, how long it is, and what the user says of it. -/
structure Payload where
  data : Nat
  length : Nat
  metadata : String
deriving DecidableEq, Repr

/-- A tensor, with the device for which it is meant, if that is known. -/
structure Tensor where
  buffer : Buffer
  length : Nat
  targetDevice : Option Device
  metadata : String
deriving DecidableEq, Repr

end Message

/-- A message, as it is given to `write`. -/
structure Message where
  metadata : String
  payloads : List Message.Payload
  tensors : List Message.Tensor
deriving DecidableEq, Repr

namespace Descriptor

/-- A payload, as the receiver learns of it. -/
structure Payload where
  length : Nat
  metadata : String
deriving DecidableEq, Repr

/-- A tensor, as the receiver learns of it. -/
structure Tensor where
  length : Nat
  sourceDevice : Device
  targetDevice : Option Device
  metadata : String
deriving DecidableEq, Repr

end Descriptor

/-- A message, as the receiver learns of it. -/
structure Descriptor where
  metadata : String := ""
  payloads : List Descriptor.Payload := []
  tensors : List Descriptor.Tensor := []
deriving DecidableEq, Repr

namespace Allocation

/-- Where a payload is to be put. -/
structure Payload where
  data : Nat
deriving DecidableEq, Repr

/-- Where a tensor is to be put. -/
structure Tensor where
  buffer : Buffer
deriving DecidableEq, Repr

end Allocation

/-- Where a message is to be put, as it is given to `read`. -/
structure Allocation where
  payloads : List Allocation.Payload := []
  tensors : List Allocation.Tensor := []
deriving DecidableEq, Repr

/-- The devices that the receiver has chosen. -/
structure DescriptorReply where
  targetDevices : List Device
deriving DecidableEq, Repr

/-- A tensor being sent, as a write operation keeps it. -/
structure SentTensor where
  sourceDevice : Device
  targetDevice : Option Device
deriving DecidableEq, Repr

-- ── The functions of the pipe on these ───────────────────────────────────────

/-- Whether the check passes; where it does not, the code throws. -/
def checkAllocationCompatibility (descriptor : Descriptor) (allocation : Allocation) :
    Bool :=
  allocation.payloads.length == descriptor.payloads.length
    && allocation.tensors.length == descriptor.tensors.length
    && (allocation.tensors.zip descriptor.tensors).all (fun p =>
        match p.2.targetDevice with
        | some device => p.1.buffer.device == device
        | none => true)

/-- The descriptor of a message. -/
def makeDescriptorForMessage (message : Message) : Descriptor where
  metadata := message.metadata
  payloads := message.payloads.map (fun payload =>
    { length := payload.length, metadata := payload.metadata })
  tensors := message.tensors.map (fun tensor =>
    { length := tensor.length
      sourceDevice := tensor.buffer.device
      targetDevice := tensor.targetDevice
      metadata := tensor.metadata })

/-- The devices of the allocation, for the tensors the sender left open. -/
def makeDescriptorReplyForMessage (descriptor : Descriptor) (allocation : Allocation) :
    DescriptorReply where
  targetDevices := (descriptor.tensors.zip allocation.tensors).filterMap (fun p =>
    match p.1.targetDevice with
    | some _ => none
    | none => some p.2.buffer.device)

/-- The tensors of a write operation when it is created. -/
def tensorsOfMessage (message : Message) : List SentTensor :=
  message.tensors.map (fun tensor =>
    { sourceDevice := tensor.buffer.device, targetDevice := tensor.targetDevice })

/-- Whether the sender left the target device of some tensor open. -/
def messageHasMissingTargetDevices (message : Message) : Bool :=
  message.tensors.any (fun tensor => tensor.targetDevice.isNone)

/-- The same question, as the receiver asks it of the descriptor. -/
def descriptorHasMissingTargetDevices (descriptor : Descriptor) : Bool :=
  descriptor.tensors.any (fun tensor => tensor.targetDevice.isNone)

/-- Fill the gaps from the reply, front to back; `none` if the reply is too short
    (there the code reads past the end of the vector).  What is left of the reply
    is returned for the debug check that compares the two sizes. -/
def parseDescriptorReplyOfMessage :
    List Message.Tensor → List SentTensor → List Device →
    Option (List SentTensor × List Device)
  | tensor :: tensors, sent :: rest, devices =>
      match tensor.targetDevice, devices with
      | some _, _ =>
          (parseDescriptorReplyOfMessage tensors rest devices).map
            (fun r => (sent :: r.1, r.2))
      | none, device :: devices' =>
          (parseDescriptorReplyOfMessage tensors rest devices').map
            (fun r => ({ sent with targetDevice := some device } :: r.1, r.2))
      | none, [] => none
  | _, sent, devices => some (sent, devices)

-- ── Sizes and the round trip ─────────────────────────────────────────────────

theorem compatible_payloads {descriptor : Descriptor} {allocation : Allocation}
    (h : checkAllocationCompatibility descriptor allocation = true) :
    allocation.payloads.length = descriptor.payloads.length := by
  simp only [checkAllocationCompatibility, Bool.and_eq_true, beq_iff_eq] at h
  exact h.1.1

theorem compatible_tensors {descriptor : Descriptor} {allocation : Allocation}
    (h : checkAllocationCompatibility descriptor allocation = true) :
    allocation.tensors.length = descriptor.tensors.length := by
  simp only [checkAllocationCompatibility, Bool.and_eq_true, beq_iff_eq] at h
  exact h.1.2

/-- A target device given by the sender is the device of a compatible allocation. -/
theorem compatible_device {descriptor : Descriptor} {allocation : Allocation}
    (h : checkAllocationCompatibility descriptor allocation = true)
    {p : Allocation.Tensor × Descriptor.Tensor}
    (hp : p ∈ allocation.tensors.zip descriptor.tensors) {device : Device}
    (hd : p.2.targetDevice = some device) : p.1.buffer.device = device := by
  simp only [checkAllocationCompatibility, Bool.and_eq_true, List.all_eq_true] at h
  have hall := h.2 p hp
  rw [hd] at hall
  simpa using hall

@[simp] theorem makeDescriptor_missing (message : Message) :
    descriptorHasMissingTargetDevices (makeDescriptorForMessage message)
      = messageHasMissingTargetDevices message := by
  simp [descriptorHasMissingTargetDevices, makeDescriptorForMessage,
    messageHasMissingTargetDevices, List.any_map, Function.comp_def]

/-- The devices of an allocation, as targets of the tensors of a message. -/
def resolvedTensors (message : Message) (allocation : Allocation) : List SentTensor :=
  (message.tensors.zip allocation.tensors).map (fun p =>
    { sourceDevice := p.1.buffer.device, targetDevice := some p.2.buffer.device })

private theorem parse_make_reply_lists :
    ∀ (tensors : List Message.Tensor) (allocated : List Allocation.Tensor),
      allocated.length = tensors.length →
      (∀ p ∈ tensors.zip allocated, ∀ device, p.1.targetDevice = some device →
        p.2.buffer.device = device) →
      parseDescriptorReplyOfMessage tensors
        (tensors.map (fun tensor => ⟨tensor.buffer.device, tensor.targetDevice⟩))
        ((tensors.zip allocated).filterMap (fun p =>
          match p.1.targetDevice with
          | some _ => none
          | none => some p.2.buffer.device))
        = some ((tensors.zip allocated).map (fun p =>
            ⟨p.1.buffer.device, some p.2.buffer.device⟩), []) := by
  intro tensors
  induction tensors with
  | nil => intro allocated _ _; rfl
  | cons tensor tensors ih =>
      intro allocated hlen hdev
      cases allocated with
      | nil => exact nomatch hlen
      | cons alloc allocated =>
          have ih' := ih allocated (by simpa using hlen)
            (fun p hp => hdev p (by simp [hp]))
          cases ht : tensor.targetDevice with
          | some device =>
              have hd := hdev (tensor, alloc) (by simp) device ht
              simp only at hd
              simp [parseDescriptorReplyOfMessage, ht, hd, ih']
          | none => simp [parseDescriptorReplyOfMessage, ht, ih']

/-- Where the sender named a target, a compatible allocation is there. -/
theorem compatible_target {message : Message} {allocation : Allocation}
    (h : checkAllocationCompatibility (makeDescriptorForMessage message) allocation
      = true)
    {p : Message.Tensor × Allocation.Tensor}
    (hp : p ∈ message.tensors.zip allocation.tensors) {device : Device}
    (hd : p.1.targetDevice = some device) : p.2.buffer.device = device := by
  let q : Descriptor.Tensor :=
    ⟨p.1.length, p.1.buffer.device, p.1.targetDevice, p.1.metadata⟩
  refine compatible_device h (p := (p.2, q)) ?_ hd
  rw [makeDescriptorForMessage, List.zip_map_right]
  refine List.mem_map.mpr ⟨(p.2, p.1), ?_, rfl⟩
  have hswap : (p.2, p.1) ∈ (message.tensors.zip allocation.tensors).map Prod.swap :=
    List.mem_map.mpr ⟨p, hp, rfl⟩
  rwa [List.zip_swap] at hswap

theorem compatible_message_tensors {message : Message} {allocation : Allocation}
    (h : checkAllocationCompatibility (makeDescriptorForMessage message) allocation
      = true) : allocation.tensors.length = message.tensors.length := by
  have hlen := compatible_tensors h
  simpa [makeDescriptorForMessage] using hlen

/-- **The reply round trip.**  Parsing the reply made from a compatible allocation
    leaves every tensor aimed at the device of its allocation, and uses up the
    whole reply. -/
theorem parse_make_reply {message : Message} {allocation : Allocation}
    (h : checkAllocationCompatibility (makeDescriptorForMessage message) allocation
      = true) :
    parseDescriptorReplyOfMessage message.tensors (tensorsOfMessage message)
      (makeDescriptorReplyForMessage (makeDescriptorForMessage message)
        allocation).targetDevices
      = some (resolvedTensors message allocation, []) := by
  have hlists := parse_make_reply_lists message.tensors allocation.tensors
    (compatible_message_tensors h) (fun p hp _ hd => compatible_target h hp hd)
  simpa [tensorsOfMessage, makeDescriptorReplyForMessage, makeDescriptorForMessage,
    resolvedTensors, List.zip_map_left, List.filterMap_map, Function.comp_def]
    using hlists

/-- With every target given, the sender already aims at the devices of any
    compatible allocation. -/
theorem resolved_of_complete {message : Message} {allocation : Allocation}
    (hall : messageHasMissingTargetDevices message = false)
    (h : checkAllocationCompatibility (makeDescriptorForMessage message) allocation
      = true) :
    tensorsOfMessage message = resolvedTensors message allocation := by
  have hlen := compatible_message_tensors h
  refine List.ext_getElem (by simp [tensorsOfMessage, resolvedTensors, hlen]) ?_
  intro i h1 h2
  have hi : i < message.tensors.length := by simpa [tensorsOfMessage] using h1
  have hnone := List.any_eq_false.mp hall _ (List.getElem_mem hi)
  obtain ⟨device, hd⟩ : ∃ device, message.tensors[i].targetDevice = some device := by
    cases ht : message.tensors[i].targetDevice with
    | none => rw [ht] at hnone; exact absurd rfl hnone
    | some device => exact ⟨device, rfl⟩
  have hmem : (message.tensors[i], allocation.tensors[i])
      ∈ message.tensors.zip allocation.tensors := by
    rw [List.mem_iff_getElem]
    exact ⟨i, by simp [hlen, hi], by simp⟩
  have hdev := compatible_target h hmem hd
  simp [tensorsOfMessage, resolvedTensors, hd, ← hdev]

end TpMessage
