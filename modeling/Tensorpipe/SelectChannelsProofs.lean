import Mathlib.Data.Finmap
import Mathlib.Tactic.Common
import Tensorpipe.MessageProofs

/-! # Contexts and the channel selection

    A context keeps its transports and its channels in maps ordered by MINUS
    their priority, so that walking a map front to back meets the highest
    priority first.  `selectTransport` and `selectChannels` are those walks.

    The selection of channels is greedy: each channel, in order, takes every
    device pair that it can serve and that no earlier channel took.  What that
    computes is `selectChannels_lookup`: a pair gets the FIRST channel that can
    serve it.  From it follow the priority reading (`selectChannels_spec`) and
    the set of channels in use (`descriptorsMap_iff`).

    The greedy walk runs twice during a handshake, on the server over the
    client's whole brochure and on the client over the server's answer, which
    lists only the channels that won a pair.  `selectChannels_transpose` is the
    agreement: dropping the losers never changes who wins.

    An unordered map is an `AList`: distinct keys, in the iteration order of the
    container.  Every statement is for every such order. -/

namespace TpSelect

open TpMessage

/-- An unordered map, listed in its iteration order. -/
abbrev UnorderedMap (κ ν : Type) := AList (fun _ : κ => ν)

-- ── Registration ─────────────────────────────────────────────────────────────

/-- What the selection asks of a transport. -/
structure TransportContext where
  domainDescriptor : String
  canCommunicateWithRemote : String → Bool
  isViable : Bool

/-- What the selection asks of a channel. -/
structure ChannelContext where
  deviceDescriptors : UnorderedMap Device String
  canCommunicateWithRemote : String → String → Bool
  numConnectionsNeeded : Nat
  isViable : Bool

/-- A registered transport or channel. -/
structure Registered (α : Type) where
  priority : Int64
  name : String
  context : α

namespace Registered

variable {α : Type}

/-- The key in the ordered map.  The priority is reversed, as the pipe will pick
    the first one it finds. -/
def key (e : Registered α) : Int64 := -e.priority

end Registered

/-- The ordered map of a context: distinct keys in increasing order, and distinct
    names (the by-name map holds the same entries). -/
structure Ordered (α : Type) where
  entries : List (Registered α)
  sorted : entries.Pairwise (fun a b => a.key < b.key)
  names : entries.Pairwise (fun a b => a.name ≠ b.name)

namespace Ordered

variable {α : Type}

/-- Nothing is registered. -/
def empty : Ordered α := ⟨[], List.Pairwise.nil, List.Pairwise.nil⟩

/-- Lookup by name. -/
def find (o : Ordered α) (name : String) : Option α :=
  (o.entries.find? (fun e => e.name == name)).map Registered.context

/-- Insert at the place of the key. -/
def insertSorted (e : Registered α) : List (Registered α) → List (Registered α)
  | [] => [e]
  | hd :: rest => if e.key < hd.key then e :: hd :: rest else hd :: insertSorted e rest

theorem mem_insertSorted {e x : Registered α} {l : List (Registered α)} :
    x ∈ insertSorted e l ↔ x = e ∨ x ∈ l := by
  induction l with
  | nil => simp [insertSorted]
  | cons hd rest ih =>
      rw [insertSorted]
      by_cases hlt : e.key < hd.key
      · rw [if_pos hlt]; simp
      · rw [if_neg hlt, List.mem_cons, ih, List.mem_cons]
        constructor
        · rintro (h | h | h)
          · exact Or.inr (Or.inl h)
          · exact Or.inl h
          · exact Or.inr (Or.inr h)
        · rintro (h | h | h)
          · exact Or.inr (Or.inl h)
          · exact Or.inl h
          · exact Or.inr (Or.inr h)

theorem insertSorted_sorted {e : Registered α} {l : List (Registered α)}
    (h : l.Pairwise (fun a b => a.key < b.key)) (hne : ∀ x ∈ l, x.key ≠ e.key) :
    (insertSorted e l).Pairwise (fun a b => a.key < b.key) := by
  induction l with
  | nil => exact List.pairwise_singleton _ _
  | cons hd rest ih =>
      obtain ⟨hhd, hrest⟩ := List.pairwise_cons.mp h
      rw [insertSorted]
      by_cases hlt : e.key < hd.key
      · rw [if_pos hlt]
        refine List.pairwise_cons.mpr ⟨?_, h⟩
        intro x hx
        rcases List.mem_cons.mp hx with rfl | hmem
        · exact hlt
        · exact Int64.lt_trans hlt (hhd x hmem)
      · rw [if_neg hlt]
        refine List.pairwise_cons.mpr ⟨?_, ih hrest (fun x hx => hne x (by simp [hx]))⟩
        intro x hx
        rcases mem_insertSorted.mp hx with rfl | hmem
        · exact Int64.lt_of_le_of_ne (Int64.not_lt.mp hlt) (hne hd (by simp))
        · exact hhd x hmem

theorem insertSorted_names {e : Registered α} {l : List (Registered α)}
    (h : l.Pairwise (fun a b => a.name ≠ b.name)) (hne : ∀ x ∈ l, x.name ≠ e.name) :
    (insertSorted e l).Pairwise (fun a b => a.name ≠ b.name) := by
  induction l with
  | nil => exact List.pairwise_singleton _ _
  | cons hd rest ih =>
      obtain ⟨hhd, hrest⟩ := List.pairwise_cons.mp h
      rw [insertSorted]
      by_cases hlt : e.key < hd.key
      · rw [if_pos hlt]
        exact List.pairwise_cons.mpr ⟨fun x hx => (hne x hx).symm, h⟩
      · rw [if_neg hlt]
        refine List.pairwise_cons.mpr ⟨?_, ih hrest (fun x hx => hne x (by simp [hx]))⟩
        intro x hx
        rcases mem_insertSorted.mp hx with rfl | hmem
        · exact hne hd (by simp)
        · exact hhd x hmem

/-- Register under a priority and a name; `none` where the code throws (an empty
    or taken name, a taken priority).  What is not viable is left out. -/
def register (o : Ordered α) (isViable : α → Bool) (priority : Int64) (name : String)
    (context : α) : Option (Ordered α) :=
  if name = "" then none
  else if hname : ∃ x ∈ o.entries, x.name = name then none
  else if hkey : ∃ x ∈ o.entries, x.key = -priority then none
  else if isViable context = false then some o
  else some
    { entries := insertSorted ⟨priority, name, context⟩ o.entries
      sorted := insertSorted_sorted o.sorted (fun x hx h => hkey ⟨x, hx, h⟩)
      names := insertSorted_names o.names (fun x hx h => hname ⟨x, hx, h⟩) }

end Ordered

/-- The part of a context that a handshake reads. -/
structure ContextImpl where
  transportsByPriority : Ordered TransportContext
  channelsByPriority : Ordered ChannelContext

namespace ContextImpl

/-- Registers a transport under its name and priority. -/
def registerTransport (c : ContextImpl) (priority : Int64) (transport : String)
    (context : TransportContext) : Option ContextImpl :=
  (c.transportsByPriority.register TransportContext.isViable priority transport
    context).map (fun o => { c with transportsByPriority := o })

/-- Registers a channel under its name and priority. -/
def registerChannel (c : ContextImpl) (priority : Int64) (channel : String)
    (context : ChannelContext) : Option ContextImpl :=
  (c.channelsByPriority.register ChannelContext.isViable priority channel
    context).map (fun o => { c with channelsByPriority := o })

/-- The transport of a name. -/
def getTransport (c : ContextImpl) (transport : String) : Option TransportContext :=
  c.transportsByPriority.find transport

/-- The channel of a name. -/
def getChannel (c : ContextImpl) (channel : String) : Option ChannelContext :=
  c.channelsByPriority.find channel

end ContextImpl

-- ── The two selections ───────────────────────────────────────────────────────

/-- The transport that both ends use. -/
structure SelectedTransport where
  name : String
  address : String
  domainDescriptor : String

/-- The first transport that this listener and the remote share and that can
    reach it; `none` where the code throws. -/
def selectTransport (remoteDomainDescriptors addresses : UnorderedMap String String) :
    List (Registered TransportContext) → Option SelectedTransport
  | [] => none
  | e :: rest =>
      match addresses.lookup e.name, remoteDomainDescriptors.lookup e.name with
      | some address, some remoteDomainDescriptor =>
          if e.context.canCommunicateWithRemote remoteDomainDescriptor = true then
            some ⟨e.name, address, e.context.domainDescriptor⟩
          else selectTransport remoteDomainDescriptors addresses rest
      | _, _ => selectTransport remoteDomainDescriptors addresses rest

/-- The channels that both ends use, and for which devices. -/
structure SelectedChannels where
  descriptorsMap : UnorderedMap String (UnorderedMap Device String) := ∅
  channelForDevicePair : UnorderedMap (Device × Device) String := ∅

/-- The body of the two inner loops: take the pair if the channel can serve it and
    no channel of higher priority has it. -/
def selectPair (channelName : String) (channelContext : ChannelContext)
    (acc : UnorderedMap (Device × Device) String × Bool)
    (localDesc remoteDesc : (_ : Device) × String) :
    UnorderedMap (Device × Device) String × Bool :=
  if channelContext.canCommunicateWithRemote localDesc.2 remoteDesc.2 = false then acc
  else if (localDesc.1, remoteDesc.1) ∈ acc.1 then acc
  else (acc.1.insert (localDesc.1, remoteDesc.1) channelName, true)

/-- The two inner loops, over the local and the remote device descriptors. -/
def selectPairs (channelName : String) (channelContext : ChannelContext)
    (remoteDeviceDescriptors : UnorderedMap Device String)
    (channelForDevicePair : UnorderedMap (Device × Device) String) :
    UnorderedMap (Device × Device) String × Bool :=
  channelContext.deviceDescriptors.entries.foldl (fun acc localDesc =>
    remoteDeviceDescriptors.entries.foldl (fun acc remoteDesc =>
      selectPair channelName channelContext acc localDesc remoteDesc) acc)
    (channelForDevicePair, false)

/-- The body of the outer loop. -/
def selectChannel
    (remoteDescriptorsMap : UnorderedMap String (UnorderedMap Device String))
    (result : SelectedChannels) (e : Registered ChannelContext) : SelectedChannels :=
  match remoteDescriptorsMap.lookup e.name with
  | none => result
  | some remoteDeviceDescriptors =>
      let r := selectPairs e.name e.context remoteDeviceDescriptors
        result.channelForDevicePair
      { channelForDevicePair := r.1
        descriptorsMap :=
          if r.2 = true then
            result.descriptorsMap.insert e.name e.context.deviceDescriptors
          else result.descriptorsMap }

/-- The channels for each pair of devices, by their priority. -/
def selectChannels (orderedChannels : Ordered ChannelContext)
    (remoteDescriptorsMap : UnorderedMap String (UnorderedMap Device String)) :
    SelectedChannels :=
  orderedChannels.entries.foldl (selectChannel remoteDescriptorsMap) {}

-- ── What one channel takes ───────────────────────────────────────────────────

/-- The channel has a descriptor for the local device, the remote has one for the
    remote device, and the two can communicate. -/
def Connects (channelContext : ChannelContext)
    (remoteDeviceDescriptors : UnorderedMap Device String)
    (pair : Device × Device) : Prop :=
  ∃ l r, channelContext.deviceDescriptors.lookup pair.1 = some l
    ∧ remoteDeviceDescriptors.lookup pair.2 = some r
    ∧ channelContext.canCommunicateWithRemote l r = true

/-- A registered channel can serve a device pair, given what the remote sent. -/
def Serves (remoteDescriptorsMap : UnorderedMap String (UnorderedMap Device String))
    (pair : Device × Device) (e : Registered ChannelContext) : Prop :=
  ∃ remote, remoteDescriptorsMap.lookup e.name = some remote
    ∧ Connects e.context remote pair

/-- The pairs some descriptor of a list of candidates is for. -/
private def Candidate (channelContext : ChannelContext)
    (ps : List (((_ : Device) × String) × ((_ : Device) × String)))
    (pair : Device × Device) : Prop :=
  ∃ p ∈ ps, channelContext.canCommunicateWithRemote p.1.2 p.2.2 = true
    ∧ (p.1.1, p.2.1) = pair

private theorem selectPair_foldl (channelName : String) (channelContext : ChannelContext)
    (ps : List (((_ : Device) × String) × ((_ : Device) × String))) :
    ∀ acc : UnorderedMap (Device × Device) String × Bool,
    let acc' := ps.foldl (fun a p => selectPair channelName channelContext a p.1 p.2) acc
    (∀ k v, acc'.1.lookup k = some v ↔ acc.1.lookup k = some v
      ∨ (acc.1.lookup k = none ∧ Candidate channelContext ps k ∧ v = channelName))
    ∧ (acc'.2 = true ↔ acc.2 = true
      ∨ ∃ k, acc.1.lookup k = none ∧ Candidate channelContext ps k) := by
  induction ps with
  | nil =>
      intro acc
      have hno : ∀ k, ¬ Candidate channelContext [] k := by
        rintro k ⟨p, hp, -⟩
        exact nomatch hp
      constructor
      · intro k v
        constructor
        · exact Or.inl
        · rintro (h | ⟨-, h, -⟩)
          · exact h
          · exact absurd h (hno k)
      · constructor
        · exact Or.inl
        · rintro (h | ⟨k, -, h⟩)
          · exact h
          · exact absurd h (hno k)
  | cons p rest ih =>
      intro acc
      have hcons : ∀ k, Candidate channelContext (p :: rest) k ↔
          (channelContext.canCommunicateWithRemote p.1.2 p.2.2 = true
            ∧ (p.1.1, p.2.1) = k) ∨ Candidate channelContext rest k := by
        intro k
        constructor
        · rintro ⟨q, hq, h⟩
          rcases List.mem_cons.mp hq with rfl | hmem
          · exact Or.inl h
          · exact Or.inr ⟨q, hmem, h⟩
        · rintro (h | ⟨q, hq, h⟩)
          · exact ⟨p, by simp, h⟩
          · exact ⟨q, by simp [hq], h⟩
      obtain ⟨ih1, ih2⟩ := ih (selectPair channelName channelContext acc p.1 p.2)
      rw [List.foldl_cons]
      -- the three ways through the body of the loop
      by_cases hcan : channelContext.canCommunicateWithRemote p.1.2 p.2.2 = false
      · rw [selectPair, if_pos hcan] at ih1 ih2 ⊢
        refine ⟨fun k v => ?_, ?_⟩
        · rw [ih1 k v, hcons]
          simp [hcan]
        · rw [ih2]
          simp only [hcons, hcan]
          simp
      · have hcan' : channelContext.canCommunicateWithRemote p.1.2 p.2.2 = true := by
          simpa using hcan
        by_cases htaken : (p.1.1, p.2.1) ∈ acc.1
        · rw [selectPair, if_neg hcan, if_pos htaken] at ih1 ih2 ⊢
          have hne : ∀ k, acc.1.lookup k = none → (p.1.1, p.2.1) ≠ k := by
            rintro k hk rfl
            exact AList.lookup_eq_none.mp hk htaken
          refine ⟨fun k v => ?_, ?_⟩
          · rw [ih1 k v, hcons]
            constructor
            · rintro (h | ⟨h1, h2, h3⟩)
              · exact Or.inl h
              · exact Or.inr ⟨h1, Or.inr h2, h3⟩
            · rintro (h | ⟨h1, ⟨-, h2⟩ | h2, h3⟩)
              · exact Or.inl h
              · exact absurd h2 (hne k h1)
              · exact Or.inr ⟨h1, h2, h3⟩
          · rw [ih2]
            constructor
            · rintro (h | ⟨k, h1, h2⟩)
              · exact Or.inl h
              · exact Or.inr ⟨k, h1, (hcons k).mpr (Or.inr h2)⟩
            · rintro (h | ⟨k, h1, h2⟩)
              · exact Or.inl h
              · rcases (hcons k).mp h2 with ⟨-, h3⟩ | h3
                · exact absurd h3 (hne k h1)
                · exact Or.inr ⟨k, h1, h3⟩
        · rw [selectPair, if_neg hcan, if_neg htaken] at ih1 ih2 ⊢
          have hfree : acc.1.lookup (p.1.1, p.2.1) = none := AList.lookup_eq_none.mpr htaken
          refine ⟨fun k v => ?_, ?_⟩
          · rw [ih1 k v, hcons]
            by_cases hk : k = (p.1.1, p.2.1)
            · subst hk
              rw [AList.lookup_insert, hfree]
              simp [hcan', eq_comm]
            · rw [AList.lookup_insert_ne hk]
              simp [Ne.symm hk]
          · rw [ih2]
            constructor
            · intro _
              exact Or.inr ⟨_, hfree, (hcons _).mpr (Or.inl ⟨hcan', rfl⟩)⟩
            · intro _
              exact Or.inl rfl

/-- What one channel adds to the map, and whether it added anything. -/
theorem selectPairs_spec (channelName : String) (channelContext : ChannelContext)
    (remote : UnorderedMap Device String)
    (taken : UnorderedMap (Device × Device) String) :
    (∀ k v, (selectPairs channelName channelContext remote taken).1.lookup k = some v ↔
      taken.lookup k = some v
        ∨ (taken.lookup k = none ∧ Connects channelContext remote k ∧ v = channelName))
    ∧ ((selectPairs channelName channelContext remote taken).2 = true ↔
      ∃ k, taken.lookup k = none ∧ Connects channelContext remote k) := by
  have hflat : selectPairs channelName channelContext remote taken
      = (channelContext.deviceDescriptors.entries.flatMap (fun l =>
          remote.entries.map (fun r => (l, r)))).foldl
        (fun a p => selectPair channelName channelContext a p.1 p.2) (taken, false) := by
    rw [List.foldl_flatMap]
    simp only [List.foldl_map]
    rfl
  have hcand : ∀ k, Candidate channelContext
      (channelContext.deviceDescriptors.entries.flatMap (fun l =>
        remote.entries.map (fun r => (l, r)))) k ↔ Connects channelContext remote k := by
    intro k
    constructor
    · rintro ⟨p, hp, hcan, rfl⟩
      obtain ⟨l, hl, hlr⟩ := List.mem_flatMap.mp hp
      obtain ⟨r, hr, rfl⟩ := List.mem_map.mp hlr
      exact ⟨l.2, r.2, AList.mem_lookup_iff.mpr hl, AList.mem_lookup_iff.mpr hr, hcan⟩
    · rintro ⟨l, r, hl, hr, hcan⟩
      refine ⟨(⟨k.1, l⟩, ⟨k.2, r⟩), ?_, hcan, rfl⟩
      exact List.mem_flatMap.mpr ⟨_, AList.mem_lookup_iff.mp hl,
        List.mem_map.mpr ⟨_, AList.mem_lookup_iff.mp hr, rfl⟩⟩
  obtain ⟨h1, h2⟩ := selectPair_foldl channelName channelContext
    (channelContext.deviceDescriptors.entries.flatMap (fun l =>
      remote.entries.map (fun r => (l, r)))) (taken, false)
  rw [← hflat] at h1 h2
  refine ⟨fun k v => ?_, ?_⟩
  · rw [h1 k v, hcand]
  · rw [h2]
    simp only [hcand]
    simp

-- ── First come, first served ─────────────────────────────────────────────────

/-- The first entry of a list that can serve a pair. -/
def FirstServing (remoteDescriptorsMap : UnorderedMap String (UnorderedMap Device String))
    (pair : Device × Device) (es : List (Registered ChannelContext))
    (e : Registered ChannelContext) : Prop :=
  ∃ pre post, es = pre ++ e :: post ∧ Serves remoteDescriptorsMap pair e
    ∧ ∀ x ∈ pre, ¬ Serves remoteDescriptorsMap pair x

variable {m : UnorderedMap String (UnorderedMap Device String)}

theorem firstServing_mem {k : Device × Device} {es : List (Registered ChannelContext)}
    {e : Registered ChannelContext} (h : FirstServing m k es e) : e ∈ es := by
  obtain ⟨pre, post, rfl, -, -⟩ := h
  simp

theorem firstServing_snoc {k : Device × Device} {es : List (Registered ChannelContext)}
    {e x : Registered ChannelContext} :
    FirstServing m k (es ++ [e]) x ↔ FirstServing m k es x
      ∨ (x = e ∧ Serves m k e ∧ ∀ y ∈ es, ¬ Serves m k y) := by
  constructor
  · rintro ⟨pre, post, heq, hx, hpre⟩
    rcases List.eq_nil_or_concat post with rfl | ⟨init, last, rfl⟩
    · obtain ⟨rfl, hlast⟩ := List.append_inj' heq rfl
      obtain ⟨rfl, -⟩ := List.cons.inj hlast
      exact Or.inr ⟨rfl, hx, hpre⟩
    · rw [List.concat_eq_append, ← List.cons_append, ← List.append_assoc] at heq
      obtain ⟨h1, -⟩ := List.append_inj' heq rfl
      exact Or.inl ⟨pre, init, h1, hx, hpre⟩
  · rintro (⟨pre, post, rfl, hx, hpre⟩ | ⟨rfl, hx, hpre⟩)
    · exact ⟨pre, post ++ [e], by simp, hx, hpre⟩
    · exact ⟨es, [], rfl, hx, hpre⟩

/-- If anything in the list serves the pair, something is the first to. -/
theorem exists_firstServing {k : Device × Device} {es : List (Registered ChannelContext)}
    (h : ∃ e ∈ es, Serves m k e) : ∃ e, FirstServing m k es e := by
  induction es with
  | nil =>
      obtain ⟨e, he, -⟩ := h
      exact nomatch he
  | cons hd rest ih =>
      by_cases hhd : Serves m k hd
      · exact ⟨hd, [], rest, rfl, hhd, fun x hx => nomatch hx⟩
      · obtain ⟨e, he, hs⟩ := h
        rcases List.mem_cons.mp he with rfl | hmem
        · exact absurd hs hhd
        · obtain ⟨e', pre, post, rfl, hs', hpre⟩ := ih ⟨e, hmem, hs⟩
          refine ⟨e', hd :: pre, post, rfl, hs', ?_⟩
          intro x hx
          rcases List.mem_cons.mp hx with rfl | hx'
          · exact hhd
          · exact hpre x hx'

/-- The invariant of the outer loop: each pair has the first channel that can serve it, and the
    descriptors are those of the channels that won a pair. -/
private structure Selected (m : UnorderedMap String (UnorderedMap Device String))
    (es : List (Registered ChannelContext)) (R : SelectedChannels) : Prop where
  pairs : ∀ k v, R.channelForDevicePair.lookup k = some v ↔
    ∃ e, FirstServing m k es e ∧ e.name = v
  descriptors : ∀ n d, R.descriptorsMap.lookup n = some d ↔
    ∃ e k, FirstServing m k es e ∧ e.name = n ∧ e.context.deviceDescriptors = d

section Selected

variable {es : List (Registered ChannelContext)} {e : Registered ChannelContext}
  {R : SelectedChannels} {remote : UnorderedMap Device String}

/-- A pair is free as long as no channel serves it. -/
private theorem Selected.free_iff (h : Selected m es R) (k : Device × Device) :
    R.channelForDevicePair.lookup k = none ↔ ∀ y ∈ es, ¬ Serves m k y := by
  constructor
  · intro hnone y hy hs
    obtain ⟨x, hx⟩ := exists_firstServing ⟨y, hy, hs⟩
    rw [(h.pairs k x.name).mpr ⟨x, hx, rfl⟩] at hnone
    exact nomatch hnone
  · intro hno
    cases hl : R.channelForDevicePair.lookup k with
    | none => rfl
    | some v =>
        obtain ⟨x, hx, -⟩ := (h.pairs k v).mp hl
        obtain ⟨pre, post, -, hs, -⟩ := id hx
        exact absurd hs (hno x (firstServing_mem hx))

private theorem serves_iff (hm : m.lookup e.name = some remote) (k : Device × Device) :
    Serves m k e ↔ Connects e.context remote k := by
  constructor
  · rintro ⟨remote', h, hc⟩
    rw [hm] at h
    obtain rfl := Option.some.inj h
    exact hc
  · intro hc
    exact ⟨remote, hm, hc⟩

/-- A channel that the remote does not have serves nothing. -/
private theorem Selected.skip (h : Selected m es R) (hm : m.lookup e.name = none) :
    Selected m (es ++ [e]) R := by
  have hserves : ∀ k, ¬ Serves m k e := by
    rintro k ⟨remote, hsome, -⟩
    rw [hm] at hsome
    exact nomatch hsome
  constructor
  · intro k v
    simp [h.pairs k v, firstServing_snoc, hserves]
  · intro n d
    simp [h.descriptors n d, firstServing_snoc, hserves]

/-- The next channel takes the pairs that it serves and that are free. -/
private theorem Selected.pairs_snoc (h : Selected m es R) (hm : m.lookup e.name = some remote)
    (k : Device × Device) (v : String) :
    (selectPairs e.name e.context remote R.channelForDevicePair).1.lookup k = some v ↔
      ∃ x, FirstServing m k (es ++ [e]) x ∧ x.name = v := by
  rw [(selectPairs_spec e.name e.context remote R.channelForDevicePair).1 k v, h.pairs k v,
    h.free_iff k, ← serves_iff hm k]
  constructor
  · rintro (⟨x, hx, rfl⟩ | ⟨hfree, hs, rfl⟩)
    · exact ⟨x, firstServing_snoc.mpr (Or.inl hx), rfl⟩
    · exact ⟨e, firstServing_snoc.mpr (Or.inr ⟨rfl, hs, hfree⟩), rfl⟩
  · rintro ⟨x, hx, rfl⟩
    rcases firstServing_snoc.mp hx with hx | ⟨rfl, hs, hfree⟩
    · exact Or.inl ⟨x, hx, rfl⟩
    · exact Or.inr ⟨hfree, hs, rfl⟩

/-- The next channel wins a pair exactly if it is the first to serve one. -/
private theorem Selected.won_iff (h : Selected m es R) (hm : m.lookup e.name = some remote)
    (hlast : ∀ x ∈ es, x.name ≠ e.name) :
    (selectPairs e.name e.context remote R.channelForDevicePair).2 = true
      ↔ ∃ k, FirstServing m k (es ++ [e]) e := by
  rw [(selectPairs_spec e.name e.context remote R.channelForDevicePair).2]
  constructor
  · rintro ⟨k, hfree, hc⟩
    exact ⟨k, firstServing_snoc.mpr
      (Or.inr ⟨rfl, (serves_iff hm k).mpr hc, (h.free_iff k).mp hfree⟩)⟩
  · rintro ⟨k, hk⟩
    rcases firstServing_snoc.mp hk with hk | ⟨-, hs, hfree⟩
    · exact absurd rfl (hlast e (firstServing_mem hk))
    · exact ⟨k, (h.free_iff k).mpr hfree, (serves_iff hm k).mp hs⟩

/-- The next channel changes nothing about the descriptors of the others. -/
private theorem firstServing_snoc_old {n : String} (hne : n ≠ e.name)
    (d : UnorderedMap Device String) :
    (∃ x k, FirstServing m k (es ++ [e]) x ∧ x.name = n ∧ x.context.deviceDescriptors = d) ↔
      ∃ x k, FirstServing m k es x ∧ x.name = n ∧ x.context.deviceDescriptors = d := by
  constructor
  · rintro ⟨x, k, hx, hn, hd⟩
    rcases firstServing_snoc.mp hx with hx | ⟨rfl, -, -⟩
    · exact ⟨x, k, hx, hn, hd⟩
    · exact absurd hn.symm hne
  · rintro ⟨x, k, hx, hn, hd⟩
    exact ⟨x, k, firstServing_snoc.mpr (Or.inl hx), hn, hd⟩

/-- Under its name there is only the next channel. -/
private theorem firstServing_snoc_last (hlast : ∀ x ∈ es, x.name ≠ e.name)
    {x : Registered ChannelContext} {k : Device × Device} (hx : FirstServing m k (es ++ [e]) x)
    (hn : x.name = e.name) : x = e := by
  rcases firstServing_snoc.mp hx with hx | ⟨rfl, -, -⟩
  · exact absurd hn (hlast x (firstServing_mem hx))
  · rfl

/-- **The body of the loop**, for a channel that the remote has: its descriptors are stored exactly
    if it won a pair. -/
private theorem Selected.take (h : Selected m es R) (hm : m.lookup e.name = some remote)
    (hlast : ∀ x ∈ es, x.name ≠ e.name) : Selected m (es ++ [e]) (selectChannel m R e) := by
  have hwon := h.won_iff hm hlast
  rw [selectChannel, hm]
  dsimp only
  refine ⟨h.pairs_snoc hm, fun n d => ?_⟩
  dsimp only
  by_cases hn : n = e.name
  · subst hn
    by_cases hsel : (selectPairs e.name e.context remote R.channelForDevicePair).2 = true
    · rw [if_pos hsel, AList.lookup_insert]
      obtain ⟨k, hk⟩ := hwon.mp hsel
      constructor
      · intro heq
        exact ⟨e, k, hk, rfl, Option.some.inj heq⟩
      · rintro ⟨x, k', hx, hxn, rfl⟩
        rw [firstServing_snoc_last hlast hx hxn]
    · rw [if_neg hsel, h.descriptors]
      constructor
      · rintro ⟨x, k, hx, hxn, -⟩
        exact absurd hxn (hlast x (firstServing_mem hx))
      · rintro ⟨x, k, hx, hxn, -⟩
        rw [firstServing_snoc_last hlast hx hxn] at hx
        exact absurd (hwon.mpr ⟨k, hx⟩) hsel
  · rw [firstServing_snoc_old hn d, ← h.descriptors n d]
    by_cases hsel : (selectPairs e.name e.context remote R.channelForDevicePair).2 = true
    · rw [if_pos hsel, AList.lookup_insert_ne hn]
    · rw [if_neg hsel]

end Selected

/-- The state of the outer loop after any part of the ordered map. -/
private theorem selectChannel_foldl (es : List (Registered ChannelContext))
    (hnames : es.Pairwise (fun a b => a.name ≠ b.name)) :
    Selected m es (es.foldl (selectChannel m) {}) := by
  induction es using List.reverseRecOn with
  | nil =>
      have hno : ∀ k e, ¬ FirstServing m k [] e := fun k e h => nomatch firstServing_mem h
      constructor
      · intro k v
        simp [hno]
      · intro n d
        simp [hno]
  | append_singleton es e ih =>
      obtain ⟨hes, -, hlast⟩ := List.pairwise_append.mp hnames
      rw [List.foldl_append, List.foldl_cons, List.foldl_nil]
      cases hm : m.lookup e.name with
      | none =>
          rw [selectChannel, hm]
          exact (ih hes).skip hm
      | some remote => exact (ih hes).take hm (fun x hx => hlast x hx e (by simp))

/-- **The greedy walk.**  A pair gets the first channel that can serve it. -/
theorem selectChannels_lookup (o : Ordered ChannelContext) (k : Device × Device)
    (v : String) :
    (selectChannels o m).channelForDevicePair.lookup k = some v ↔
      ∃ e, FirstServing m k o.entries e ∧ e.name = v :=
  (selectChannel_foldl o.entries o.names).pairs k v

/-- The map of descriptors holds the channels that won at least one pair. -/
theorem descriptorsMap_lookup (o : Ordered ChannelContext) (n : String)
    (d : UnorderedMap Device String) :
    (selectChannels o m).descriptorsMap.lookup n = some d ↔
      ∃ e k, FirstServing m k o.entries e ∧ e.name = n
        ∧ e.context.deviceDescriptors = d :=
  (selectChannel_foldl o.entries o.names).descriptors n d

-- ── The priority reading ─────────────────────────────────────────────────────

/-- Reversing priorities reverses their order, except at the one priority whose
    negation overflows. -/
theorem neg_lt_neg {p q : Int64} (hp : p ≠ Int64.minValue) (hq : q ≠ Int64.minValue) :
    -p < -q ↔ q < p := by
  have hne : ∀ n : Int64, n ≠ Int64.minValue → (-n).toInt = -n.toInt := by
    intro n hn
    have h1 := n.le_toInt
    have h2 := n.toInt_lt
    have h3 : n.toInt ≠ -2 ^ 63 := by
      intro h
      exact hn (Int64.toInt_inj.mp (h.trans (by decide)))
    rw [Int64.toInt_neg, Int.bmod_eq_of_le] <;> omega
  rw [Int64.lt_iff_toInt_lt, Int64.lt_iff_toInt_lt, hne p hp, hne q hq]
  omega

/-- Being first is having the smallest key among those that serve. -/
theorem firstServing_iff {k : Device × Device} {o : Ordered ChannelContext}
    {e : Registered ChannelContext} :
    FirstServing m k o.entries e ↔ e ∈ o.entries ∧ Serves m k e
      ∧ ∀ x ∈ o.entries, Serves m k x → x = e ∨ e.key < x.key := by
  constructor
  · intro h
    refine ⟨firstServing_mem h, ?_⟩
    obtain ⟨pre, post, heq, hs, hpre⟩ := h
    refine ⟨hs, fun x hx hxs => ?_⟩
    have hsorted := o.sorted
    rw [heq] at hx hsorted
    rcases List.mem_append.mp hx with hx | hx
    · exact absurd hxs (hpre x hx)
    · rcases List.mem_cons.mp hx with rfl | hx
      · exact Or.inl rfl
      · have := (List.pairwise_append.mp hsorted).2.1
        exact Or.inr ((List.pairwise_cons.mp this).1 x hx)
  · rintro ⟨he, hs, hmin⟩
    obtain ⟨pre, post, heq⟩ := List.append_of_mem he
    refine ⟨pre, post, heq, hs, fun x hx hxs => ?_⟩
    have hsorted := o.sorted
    rw [heq] at hsorted
    have hlt := (List.pairwise_append.mp hsorted).2.2 x hx e (by simp)
    rcases hmin x (by rw [heq]; simp [hx]) hxs with rfl | hlt'
    · exact Int64.lt_irrefl hlt
    · exact Int64.lt_irrefl (Int64.lt_trans hlt hlt')

/-- **The selection, by priority.**  A pair gets the channel of highest priority
    among those that can serve it. -/
theorem selectChannels_spec (o : Ordered ChannelContext)
    (hmin : ∀ e ∈ o.entries, e.priority ≠ Int64.minValue)
    (k : Device × Device) (v : String) :
    (selectChannels o m).channelForDevicePair.lookup k = some v ↔
      ∃ e ∈ o.entries, e.name = v ∧ Serves m k e
        ∧ ∀ x ∈ o.entries, x ≠ e → Serves m k x → x.priority < e.priority := by
  rw [selectChannels_lookup]
  have hkey : ∀ e ∈ o.entries, ∀ x ∈ o.entries,
      e.key < x.key ↔ x.priority < e.priority :=
    fun e he x hx => neg_lt_neg (hmin e he) (hmin x hx)
  constructor
  · rintro ⟨e, he, rfl⟩
    obtain ⟨hmem, hs, hfirst⟩ := firstServing_iff.mp he
    refine ⟨e, hmem, rfl, hs, fun x hx hne hxs => ?_⟩
    exact (hkey e hmem x hx).mp ((hfirst x hx hxs).resolve_left hne)
  · rintro ⟨e, hmem, rfl, hs, hbest⟩
    refine ⟨e, firstServing_iff.mpr ⟨hmem, hs, fun x hx hxs => ?_⟩, rfl⟩
    by_cases hne : x = e
    · exact Or.inl hne
    · exact Or.inr ((hkey e hmem x hx).mpr (hbest x hx hne hxs))

/-- A pair gets nothing exactly if no channel can serve it. -/
theorem selectChannels_none (o : Ordered ChannelContext) (k : Device × Device) :
    (selectChannels o m).channelForDevicePair.lookup k = none ↔
      ∀ e ∈ o.entries, ¬ Serves m k e := by
  constructor
  · intro h e he hs
    obtain ⟨x, hx⟩ := exists_firstServing ⟨e, he, hs⟩
    rw [(selectChannels_lookup o k x.name).mpr ⟨x, hx, rfl⟩] at h
    exact nomatch h
  · intro h
    cases hl : (selectChannels o m).channelForDevicePair.lookup k with
    | none => rfl
    | some v =>
        obtain ⟨e, he, -⟩ := (selectChannels_lookup o k v).mp hl
        obtain ⟨hmem, hs, -⟩ := firstServing_iff.mp he
        exact absurd hs (h e hmem)

/-- The map of descriptors mentions exactly the channels in use. -/
theorem descriptorsMap_iff (o : Ordered ChannelContext) (n : String) :
    n ∈ (selectChannels o m).descriptorsMap ↔
      ∃ k, (selectChannels o m).channelForDevicePair.lookup k = some n := by
  rw [← AList.lookup_isSome, Option.isSome_iff_exists]
  constructor
  · rintro ⟨d, hd⟩
    obtain ⟨e, k, he, hn, -⟩ := (descriptorsMap_lookup o n d).mp hd
    exact ⟨k, (selectChannels_lookup o k n).mpr ⟨e, he, hn⟩⟩
  · rintro ⟨k, hk⟩
    obtain ⟨e, he, hn⟩ := (selectChannels_lookup o k n).mp hk
    exact ⟨_, (descriptorsMap_lookup o n _).mpr ⟨e, k, he, hn, rfl⟩⟩

-- ── The two runs of a handshake ──────────────────────────────────────────────

/-- The channel part of a brochure: every registered channel with all its device
    descriptors. -/
def channelDeviceDescriptors (o : Ordered ChannelContext) :
    UnorderedMap String (UnorderedMap Device String) :=
  o.entries.foldl (fun acc e => acc.insert e.name e.context.deviceDescriptors) ∅

theorem channelDeviceDescriptors_lookup (o : Ordered ChannelContext) (n : String)
    (d : UnorderedMap Device String) :
    (channelDeviceDescriptors o).lookup n = some d ↔
      ∃ e ∈ o.entries, e.name = n ∧ e.context.deviceDescriptors = d := by
  have hgen : ∀ es : List (Registered ChannelContext),
      es.Pairwise (fun a b => a.name ≠ b.name) →
      ((es.foldl (fun (acc : UnorderedMap String (UnorderedMap Device String)) e =>
        acc.insert e.name e.context.deviceDescriptors) ∅).lookup n = some d ↔
        ∃ e ∈ es, e.name = n ∧ e.context.deviceDescriptors = d) := by
    intro es
    induction es using List.reverseRecOn with
    | nil => intro _; simp
    | append_singleton es e ih =>
        intro hnames
        obtain ⟨hes, -, hlast⟩ := List.pairwise_append.mp hnames
        rw [List.foldl_append, List.foldl_cons, List.foldl_nil]
        by_cases hn : n = e.name
        · subst hn
          rw [AList.lookup_insert]
          constructor
          · intro h
            exact ⟨e, by simp, rfl, Option.some.inj h⟩
          · rintro ⟨x, hx, hxn, rfl⟩
            rcases List.mem_append.mp hx with hx | hx
            · exact absurd hxn (hlast x hx e (by simp))
            · rw [List.mem_singleton.mp hx]
        · rw [AList.lookup_insert_ne hn, ih hes]
          constructor
          · rintro ⟨x, hx, h⟩
            exact ⟨x, by simp [hx], h⟩
          · rintro ⟨x, hx, hxn, hd⟩
            rcases List.mem_append.mp hx with hx | hx
            · exact ⟨x, hx, hxn, hd⟩
            · rw [List.mem_singleton.mp hx] at hxn
              exact absurd hxn.symm hn
  exact hgen o.entries o.names

/-- The two sides agree on whether a channel can be used. -/
def Symmetric (server client : Ordered ChannelContext) : Prop :=
  ∀ s ∈ server.entries, ∀ c ∈ client.entries, s.name = c.name → ∀ l r,
    s.context.canCommunicateWithRemote l r = c.context.canCommunicateWithRemote r l

/-- The two sides rank their common channels alike. -/
def SameOrder (server client : Ordered ChannelContext) : Prop :=
  ∀ s ∈ server.entries, ∀ c ∈ client.entries, s.name = c.name →
  ∀ s' ∈ server.entries, ∀ c' ∈ client.entries, s'.name = c'.name →
    (s.priority < s'.priority ↔ c.priority < c'.priority)

/-- A name belongs to one entry. -/
theorem entry_unique {α : Type} {o : Ordered α} {a b : Registered α}
    (ha : a ∈ o.entries) (hb : b ∈ o.entries) (h : a.name = b.name) : a = b := by
  obtain ⟨pre, post, heq⟩ := List.append_of_mem ha
  have hnames := o.names
  rw [heq] at hnames hb
  obtain ⟨-, hpost, hpre⟩ := List.pairwise_append.mp hnames
  rcases List.mem_append.mp hb with hb | hb
  · exact absurd h.symm (hpre b hb a (by simp))
  · rcases List.mem_cons.mp hb with rfl | hb
    · rfl
    · exact absurd h ((List.pairwise_cons.mp hpost).1 b hb)

/-- What the client can use of the server's answer: the common channels that won
    a pair on the server and that the server could use for the transposed pair. -/
theorem serves_answer {server client : Ordered ChannelContext}
    (hsym : Symmetric server client) {l r : Device}
    {c : Registered ChannelContext} (hc : c ∈ client.entries) :
    Serves (selectChannels server (channelDeviceDescriptors client)).descriptorsMap
        (l, r) c ↔
      ∃ s ∈ server.entries, s.name = c.name
        ∧ Serves (channelDeviceDescriptors client) (r, l) s
        ∧ ∃ k, FirstServing (channelDeviceDescriptors client) k server.entries s := by
  constructor
  · rintro ⟨remote, hremote, lc, rs, hlc, hrs, hcan⟩
    obtain ⟨s, k, hs, hname, rfl⟩ := (descriptorsMap_lookup server c.name remote).mp hremote
    have hmem := firstServing_mem hs
    refine ⟨s, hmem, hname, ⟨c.context.deviceDescriptors, ?_, rs, lc, hrs, hlc, ?_⟩, k, hs⟩
    · exact (channelDeviceDescriptors_lookup client s.name _).mpr ⟨c, hc, hname.symm, rfl⟩
    · rw [hsym s hmem c hc hname]
      exact hcan
  · rintro ⟨s, hs, hname, ⟨remote, hremote, rs, lc, hrs, hlc, hcan⟩, k, hk⟩
    obtain ⟨c', hc', hname', rfl⟩ :=
      (channelDeviceDescriptors_lookup client s.name remote).mp hremote
    obtain rfl := entry_unique hc' hc (hname'.trans hname)
    refine ⟨s.context.deviceDescriptors, ?_, lc, rs, hlc, hrs, ?_⟩
    · exact (descriptorsMap_lookup server c'.name _).mpr ⟨s, k, hk, hname, rfl⟩
    · rw [← hsym s hs c' hc hname]
      exact hcan

/-- **Agreement.**  With a symmetric notion of reachability and the same ranking of
    the common channels, the client's run over the server's filtered answer gives
    the transpose of the server's map. -/
theorem selectChannels_transpose {server client : Ordered ChannelContext}
    (hsym : Symmetric server client) (hord : SameOrder server client)
    (hs0 : ∀ e ∈ server.entries, e.priority ≠ Int64.minValue)
    (hc0 : ∀ e ∈ client.entries, e.priority ≠ Int64.minValue) (l r : Device) :
    (selectChannels client (selectChannels server
        (channelDeviceDescriptors client)).descriptorsMap).channelForDevicePair.lookup (l, r)
      = (selectChannels server
        (channelDeviceDescriptors client)).channelForDevicePair.lookup (r, l) := by
  cases hl : (selectChannels server
      (channelDeviceDescriptors client)).channelForDevicePair.lookup (r, l) with
  | none =>
      have hno := (selectChannels_none server (r, l)).mp hl
      refine (selectChannels_none client (l, r)).mpr ?_
      intro c hc hserves
      obtain ⟨s, hs, -, hsv, -⟩ := (serves_answer hsym hc).mp hserves
      exact hno s hs hsv
  | some v =>
      obtain ⟨s, hs, rfl, hsv, hbest⟩ := (selectChannels_spec server hs0 (r, l) v).mp hl
      have hfirst : FirstServing (channelDeviceDescriptors client) (r, l) server.entries s := by
        obtain ⟨s', hs', hname⟩ := (selectChannels_lookup server (r, l) s.name).mp hl
        rwa [entry_unique (firstServing_mem hs') hs hname] at hs'
      -- the client has the winner too, since its brochure mentioned it
      obtain ⟨remote, hremote, -⟩ := id hsv
      obtain ⟨c, hc, hname, -⟩ :=
        (channelDeviceDescriptors_lookup client s.name remote).mp hremote
      refine (selectChannels_spec client hc0 (l, r) s.name).mpr ⟨c, hc, hname, ?_, ?_⟩
      · exact (serves_answer hsym hc).mpr ⟨s, hs, hname.symm, hsv, (r, l), hfirst⟩
      · intro c' hc' hne hserves
        obtain ⟨s', hs', hname', hsv', -⟩ := (serves_answer hsym hc').mp hserves
        have hne' : s' ≠ s := by
          rintro rfl
          exact hne (entry_unique hc' hc (hname'.symm.trans hname.symm))
        exact (hord s' hs' c' hc' hname' s hs c hc hname.symm).mp (hbest s' hs' hne' hsv')

-- ── The client's consistency check ───────────────────────────────────────────

/-- Same size, and every entry of the local map is in the answer, transposed. -/
def consistentChannelSelection (answer mine : UnorderedMap (Device × Device) String) :
    Bool :=
  answer.entries.length == mine.entries.length
    && mine.entries.all (fun e => answer.lookup (e.1.2, e.1.1) == some e.2)

private theorem swap_keys_nodup (mine : UnorderedMap (Device × Device) String) :
    (mine.keys.map Prod.swap).Nodup :=
  mine.keys_nodup.map Prod.swap_injective

/-- **The check is sound.**  One-directional lookups and equal sizes already make
    the two maps transposes of each other. -/
theorem consistent_transpose {answer mine : UnorderedMap (Device × Device) String}
    (h : consistentChannelSelection answer mine = true) (l r : Device) :
    mine.lookup (l, r) = answer.lookup (r, l) := by
  simp only [consistentChannelSelection, Bool.and_eq_true, beq_iff_eq,
    List.all_eq_true] at h
  obtain ⟨hlen, hall⟩ := h
  have hfind : ∀ a b v, mine.lookup (a, b) = some v → answer.lookup (b, a) = some v :=
    fun a b v hv => hall ⟨(a, b), v⟩ (AList.mem_lookup_iff.mp hv)
  have hsub : mine.keys.map Prod.swap ⊆ answer.keys := by
    intro k hk
    obtain ⟨k', hk', rfl⟩ := List.mem_map.mp hk
    obtain ⟨v, hv⟩ := Option.isSome_iff_exists.mp (AList.lookup_isSome.mpr hk')
    have hans : answer.lookup k'.swap = some v := hfind k'.1 k'.2 v hv
    refine AList.lookup_isSome.mp ?_
    rw [hans]
    rfl
  have hperm : (mine.keys.map Prod.swap).Perm answer.keys := by
    refine (List.subperm_of_subset (swap_keys_nodup mine) hsub).perm_of_length_le ?_
    have h1 : answer.keys.length = answer.entries.length := List.length_map _
    have h2 : mine.keys.length = mine.entries.length := List.length_map _
    rw [List.length_map, h1, h2, hlen]
  cases hm : mine.lookup (l, r) with
  | some v => exact (hfind l r v hm).symm
  | none =>
      symm
      refine AList.lookup_eq_none.mpr ?_
      intro hmem
      obtain ⟨k, hk, hswap⟩ := List.mem_map.mp (hperm.mem_iff.mpr hmem)
      have hkey : k = (l, r) := by
        rw [show (r, l) = Prod.swap (l, r) from rfl] at hswap
        exact Prod.swap_injective hswap
      rw [hkey] at hk
      exact AList.lookup_eq_none.mp hm hk

/-- **The check is complete.**  Transposed maps pass it. -/
theorem consistent_of_transpose {answer mine : UnorderedMap (Device × Device) String}
    (h : ∀ l r, mine.lookup (l, r) = answer.lookup (r, l)) :
    consistentChannelSelection answer mine = true := by
  simp only [consistentChannelSelection, Bool.and_eq_true, beq_iff_eq, List.all_eq_true]
  constructor
  · have hperm : (mine.keys.map Prod.swap).Perm answer.keys := by
      refine (List.perm_ext_iff_of_nodup (swap_keys_nodup mine) answer.keys_nodup).mpr ?_
      rintro ⟨r, l⟩
      rw [← AList.mem_keys, ← AList.lookup_isSome, ← h l r, AList.lookup_isSome,
        AList.mem_keys]
      constructor
      · intro hk
        obtain ⟨k, hk, hswap⟩ := List.mem_map.mp hk
        rw [show (r, l) = Prod.swap (l, r) from rfl] at hswap
        rwa [Prod.swap_injective hswap] at hk
      · intro hk
        exact List.mem_map.mpr ⟨(l, r), hk, rfl⟩
    have h1 : answer.keys.length = answer.entries.length := List.length_map _
    have h2 : mine.keys.length = mine.entries.length := List.length_map _
    rw [← h1, ← h2, ← hperm.length_eq, List.length_map]
  · rintro ⟨⟨l, r⟩, v⟩ hv
    rw [← h l r]
    exact AList.mem_lookup_iff.mpr hv

end TpSelect
