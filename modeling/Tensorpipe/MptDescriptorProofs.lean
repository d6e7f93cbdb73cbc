import Mathlib.Tactic.Common
import Tensorpipe.TextProofs

/-! # The domain descriptor of an mpt context

    Two mpt contexts talk to each other if their descriptors are equal.  The descriptor is the
    number of lanes and then the domain descriptors of their transports, each behind a colon.

    Nothing escapes the colons that the transports' own descriptors contain, so the descriptor
    tells the lanes apart only if it does not matter which colons are separators. -/

namespace TpMpt

open TpText

/-- What the mpt context asks of a transport context. -/
structure LaneContext where
  isViable : Bool
  domainDescriptor : List Char
deriving DecidableEq, Repr

/-- The number of the lanes and then their descriptors. -/
def generateDomainDescriptor (contexts : List LaneContext) : List Char :=
  decimal contexts.length ++ contexts.flatMap (fun context => ':' :: context.domainDescriptor)

/-- The descriptor under which the context is registered for the CPU; there is no context if
    one of the transports is not viable. -/
def ContextImpl.create (contexts : List LaneContext) : Option (List Char) :=
  if contexts.all LaneContext.isViable then some (generateDomainDescriptor contexts) else none

/-- Two ends can communicate when their descriptors are equal. -/
def canCommunicateWithRemote (localDeviceDescriptor remoteDeviceDescriptor : List Char) : Bool :=
  localDeviceDescriptor == remoteDeviceDescriptor

/-- The domain descriptors, lane by lane. -/
def laneDescriptors (contexts : List LaneContext) : List (List Char) :=
  contexts.map LaneContext.domainDescriptor

theorem generateDomainDescriptor_eq (contexts : List LaneContext) :
    generateDomainDescriptor contexts
      = decimal contexts.length ++ tagged ':' (laneDescriptors contexts) := by
  rw [generateDomainDescriptor, tagged, laneDescriptors, List.flatMap_map]

/-- Two contexts whose descriptors are equal have as many lanes, and the same pieces. -/
theorem generateDomainDescriptor_eq_iff (xs ys : List LaneContext) :
    generateDomainDescriptor xs = generateDomainDescriptor ys
      ↔ xs.length = ys.length
        ∧ pieces ':' (laneDescriptors xs) = pieces ':' (laneDescriptors ys) := by
  rw [generateDomainDescriptor_eq, generateDomainDescriptor_eq,
    tagged_eq_iff (not_mem_decimal (by decide)) (not_mem_decimal (by decide)),
    decimal_injective.eq_iff]

/-- Contexts that accept each other have equal lanes. -/
def LanesIdentified (xs ys : List LaneContext) : Prop :=
  canCommunicateWithRemote (generateDomainDescriptor xs) (generateDomainDescriptor ys) = true →
    xs.length = ys.length ∧ laneDescriptors xs = laneDescriptors ys

/-- In how many pieces the colons cut the descriptor of each lane. -/
def laneCuts (contexts : List LaneContext) : List Nat :=
  (laneDescriptors contexts).map (fun descriptor => (descriptor.splitOn ':').length)

/-- As many lanes, made of the same pieces, but cut into lanes elsewhere. -/
def CutElsewhere (xs ys : List LaneContext) : Prop :=
  xs.length = ys.length ∧ pieces ':' (laneDescriptors xs) = pieces ':' (laneDescriptors ys)
    ∧ laneCuts xs ≠ laneCuts ys

/-- Two lanes whose descriptors share their colon differently. -/
theorem lanes_confused :
    ¬ LanesIdentified [⟨true, ['a', ':', 'b']⟩, ⟨true, ['c']⟩]
        [⟨true, ['a']⟩, ⟨true, ['b', ':', 'c']⟩] := by
  intro h
  exact nomatch (h (by decide)).2

/-- **What the descriptor identifies.**  Contexts that accept each other have equal lanes,
    unless their lanes are made of the same pieces cut elsewhere. -/
theorem lanes_identified_iff (xs ys : List LaneContext) :
    LanesIdentified xs ys ↔ ¬ CutElsewhere xs ys := by
  have haccept : canCommunicateWithRemote (generateDomainDescriptor xs)
      (generateDomainDescriptor ys) = true
      ↔ xs.length = ys.length
        ∧ pieces ':' (laneDescriptors xs) = pieces ':' (laneDescriptors ys) := by
    rw [canCommunicateWithRemote, beq_iff_eq, generateDomainDescriptor_eq_iff]
  rw [LanesIdentified, haccept]
  constructor
  · rintro h ⟨hlen, hpieces, hcuts⟩
    refine hcuts ?_
    rw [laneCuts, laneCuts, (h ⟨hlen, hpieces⟩).2]
  · rintro hcut ⟨hlen, hpieces⟩
    have hcuts : laneCuts xs = laneCuts ys :=
      Classical.byContradiction (fun hne => hcut ⟨hlen, hpieces, hne⟩)
    exact ⟨hlen, eq_of_pieces hpieces hcuts⟩

end TpMpt
