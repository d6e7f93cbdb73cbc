import Tensorpipe.HandshakeProofs
import Tensorpipe.PipeReadStreamProofs

/-! # What two pipes issue, side by side

    The writing half of one pipe and the reading half of another both follow the order of
    the messages.  Frames, replies and tensors carry no number, so the two ends must issue
    them in one order; they do, because what each issues is a function of the messages
    written and of the allocations given (`WriteStream`, `ReadStream`), and these two
    functions agree message by message (`startCalls_frames`, `readCalls_frames`, …).

    As far as both ends have gone, then, they have issued the same: `frames_agree`,
    `replies_agree`, `transfers_agree`. -/

namespace TpPipe

open TpStateMachine TpMessage TpSelect TpStream

-- ── What goes over a connection or a channel ─────────────────────────────────

/-- A frame of the descriptor connection, as one end sees it. -/
inductive FrameKind where
  | descriptor (n : Nat)
  | payload (n payloadIdx length : Nat)
deriving DecidableEq, Repr

/-- A tensor that is handed to a channel, as one end sees it. -/
structure Transfer where
  channel : String
  message : Nat
  tensorIdx : Nat
  length : Nat
deriving DecidableEq, Repr

namespace WriteCall

/-- The frame that a call writes on the descriptor connection. -/
def frame : WriteCall → Option FrameKind
  | descriptor n _ => some (.descriptor n)
  | payload n payloadIdx _ length => some (.payload n payloadIdx length)
  | _ => none

/-- The transfer that a call begins on a channel. -/
def transfer : WriteCall → Option Transfer
  | tensor channel n tensorIdx _ length => some ⟨channel, n, tensorIdx, length⟩
  | _ => none

/-- The message whose reply is read. -/
def replyNumber : WriteCall → Option Nat
  | descriptorReply n => some n
  | _ => none

end WriteCall

namespace ReadCall

/-- The frame that a call reads from the descriptor connection. -/
def frame : ReadCall → Option FrameKind
  | descriptor n => some (.descriptor n)
  | payload n payloadIdx _ length => some (.payload n payloadIdx length)
  | _ => none

/-- The transfer that a call expects on a channel. -/
def transfer : ReadCall → Option Transfer
  | tensor channel n tensorIdx _ length => some ⟨channel, n, tensorIdx, length⟩
  | _ => none

/-- The reply that is written, with the message it answers. -/
def reply : ReadCall → Option (Nat × DescriptorReply)
  | descriptorReply n reply => some (n, reply)
  | _ => none

end ReadCall

theorem writeFrame_isSome (c : WriteCall) : c.isFrame = c.frame.isSome := by
  cases c <;> rfl

theorem readFrame_isSome (c : ReadCall) : c.isFrame = c.frame.isSome := by
  cases c <;> rfl

-- ── The calls of one message ─────────────────────────────────────────────────

/-- The frames of a message. -/
def frameKinds (n : Nat) (message : Message) : List FrameKind :=
  .descriptor n :: message.payloads.zipIdx.map (fun p => .payload n p.2 p.1.length)

/-- The reply of a message, if it has one. -/
def replyNumbers (n : Nat) (message : Message) : List Nat :=
  if messageHasMissingTargetDevices message then [n] else []

/-- A tensor on its way, as the writer and as the reader find its channel. -/
def sendTransfer (g : Gate) (n : Nat) (p : (Message.Tensor × SentTensor) × Nat) : Transfer :=
  ⟨(p.1.2.targetDevice.bind (fun remoteDevice =>
    g.channelForDevicePair.lookup (p.1.2.sourceDevice, remoteDevice))).getD "", n, p.2,
    p.1.1.length⟩

/-- The transfer of a tensor, as its receiver sees it. -/
def recvTransfer (g : Gate) (n : Nat) (p : (Allocation.Tensor × Descriptor.Tensor) × Nat) :
    Transfer :=
  ⟨(g.channelForDevicePair.lookup (p.1.1.buffer.device, p.1.2.sourceDevice)).getD "", n, p.2,
    p.1.2.length⟩

section Message

variable {g g' : Gate} {n : Nat} {message : Message} {allocation : Allocation}

theorem startCalls_frames : (startCalls n message).filterMap WriteCall.frame
    = frameKinds n message := by
  have hpay : (payloadWrites (newWriteOperation n message)).filterMap WriteCall.frame
      = message.payloads.zipIdx.map (fun p => .payload n p.2 p.1.length) := by
    refine filterMap_map_some ?_ _
    exact fun _ => rfl
  have hreply : (if messageHasMissingTargetDevices message then
      [WriteCall.descriptorReply n] else []).filterMap WriteCall.frame = [] := by
    split <;> rfl
  rw [startCalls, List.filterMap_append, hreply, List.append_nil, messageFrames]
  exact congrArg (List.cons (FrameKind.descriptor n)) hpay

theorem startCalls_replies : (startCalls n message).filterMap WriteCall.replyNumber
    = replyNumbers n message := by
  have hframes : (messageFrames (newWriteOperation n message)).filterMap
      WriteCall.replyNumber = [] := by
    rw [List.filterMap_eq_nil_iff]
    intro c hc
    rcases List.mem_cons.mp hc with rfl | hc
    · rfl
    · obtain ⟨p, -, rfl⟩ := List.mem_map.mp hc
      rfl
  rw [startCalls, List.filterMap_append, hframes, List.nil_append, replyNumbers]
  split <;> rfl

/-- What a read operation issues, apart from the descriptor, by kind. -/
theorem messageReads_kinds (g : Gate) (op : ReadOperation) :
    (messageReads g op).filterMap ReadCall.frame = (payloadReads op).filterMap ReadCall.frame
    ∧ (messageReads g op).filterMap ReadCall.reply = (replyWrites op).filterMap ReadCall.reply
    ∧ (messageReads g op).filterMap ReadCall.transfer
      = (tensorRecvs g op).filterMap ReadCall.transfer := by
  have hpay : ∀ c ∈ payloadReads op, c.reply = none ∧ c.transfer = none := by
    intro c hc
    obtain ⟨p, -, rfl⟩ := List.mem_map.mp hc
    exact ⟨rfl, rfl⟩
  have hrep : ∀ c ∈ replyWrites op, c.frame = none ∧ c.transfer = none := by
    intro c hc
    obtain ⟨reply, rfl⟩ := replyWrites_reply op c hc
    exact ⟨rfl, rfl⟩
  have hten : ∀ c ∈ tensorRecvs g op, c.frame = none ∧ c.reply = none := by
    intro c hc
    obtain ⟨p, -, rfl⟩ := List.mem_map.mp hc
    exact ⟨rfl, rfl⟩
  simp only [messageReads, List.filterMap_append]
  refine ⟨?_, ?_, ?_⟩
  · rw [List.filterMap_eq_nil_iff.mpr (fun c hc => (hrep c hc).1),
      List.filterMap_eq_nil_iff.mpr (fun c hc => (hten c hc).1), List.append_nil,
      List.append_nil]
  · rw [List.filterMap_eq_nil_iff.mpr (fun c hc => (hpay c hc).1),
      List.filterMap_eq_nil_iff.mpr (fun c hc => (hten c hc).2), List.nil_append,
      List.append_nil]
  · rw [List.filterMap_eq_nil_iff.mpr (fun c hc => (hpay c hc).2),
      List.filterMap_eq_nil_iff.mpr (fun c hc => (hrep c hc).2), List.nil_append,
      List.nil_append]

theorem readCalls_frames
    (h : checkAllocationCompatibility (makeDescriptorForMessage message) allocation = true) :
    (readCalls g n message allocation).filterMap ReadCall.frame = frameKinds n message := by
  have hlen : allocation.payloads.length = message.payloads.length := by
    have := compatible_payloads h
    simpa [makeDescriptorForMessage] using this
  refine congrArg (List.cons (FrameKind.descriptor n)) ?_
  rw [(messageReads_kinds g _).1, payloadReads]
  rw [filterMap_map_some (k := ReadCall.frame)
    (h := fun p => FrameKind.payload n p.2 p.1.2.length) (fun _ => rfl)]
  refine List.ext_getElem ?_ ?_
  · simp [readOperationOf, makeDescriptorForMessage, hlen]
  · intro i h1 h2
    simp [readOperationOf, makeDescriptorForMessage]

theorem readCalls_replies :
    (readCalls g n message allocation).filterMap ReadCall.reply
      = (replyNumbers n message).map (fun k =>
        (k, makeDescriptorReplyForMessage (makeDescriptorForMessage message) allocation)) := by
  rw [readCalls, List.filterMap_cons_none rfl, (messageReads_kinds g _).2.1, replyWrites,
    replyNumbers, readOperationOf]
  split <;> rfl

/-- The two ends hand the tensors of a message to the same channels. -/
theorem readCalls_transfers
    (htr : PipeImpl.Transposed g.channelForDevicePair g'.channelForDevicePair)
    (h : checkAllocationCompatibility (makeDescriptorForMessage message) allocation = true) :
    (readCalls g' n message allocation).filterMap ReadCall.transfer
      = (sendCalls g n message (resolvedTensors message allocation)).filterMap
        WriteCall.transfer := by
  have hlen := compatible_message_tensors h
  rw [readCalls, List.filterMap_cons_none rfl, (messageReads_kinds g' _).2.2, tensorRecvs,
    sendCalls, tensorSends]
  rw [filterMap_map_some (k := ReadCall.transfer) (h := recvTransfer g' n) (fun _ => rfl),
    filterMap_map_some (k := WriteCall.transfer) (h := sendTransfer g n) (fun _ => rfl)]
  refine List.ext_getElem ?_ ?_
  · simp [readOperationOf, makeDescriptorForMessage, newWriteOperation, resolvedTensors, hlen]
  · intro i h1 h2
    have hi : i < message.tensors.length := by
      simpa [newWriteOperation, resolvedTensors, hlen] using h2
    have hi' : i < allocation.tensors.length := by rw [hlen]; exact hi
    rw [List.getElem_map, List.getElem_map]
    -- both ends look the same pair up, each from its own side
    have hlt : i < (allocation.tensors.zip
        (makeDescriptorForMessage message).tensors).zipIdx.length := by
      simpa [readOperationOf] using h1
    have hlt' : i < (message.tensors.zip (resolvedTensors message allocation)).zipIdx.length := by
      simpa [newWriteOperation] using h2
    have hrecv : (allocation.tensors.zip (makeDescriptorForMessage message).tensors).zipIdx[i]
        = ((allocation.tensors[i], ⟨message.tensors[i].length, message.tensors[i].buffer.device,
          message.tensors[i].targetDevice, message.tensors[i].metadata⟩), i) := by
      simp [makeDescriptorForMessage]
    have hsend : (message.tensors.zip (resolvedTensors message allocation)).zipIdx[i]
        = ((message.tensors[i], ⟨message.tensors[i].buffer.device,
          some allocation.tensors[i].buffer.device⟩), i) := by
      simp [resolvedTensors]
    refine (congrArg (recvTransfer g' n) hrecv).trans
      (Eq.trans ?_ (congrArg (sendTransfer g n) hsend).symm)
    rw [recvTransfer, sendTransfer, ← htr]
    rfl

end Message

-- ── The calls of all messages ────────────────────────────────────────────────

/-- The targets that the tensors of a message may go to: those the message has, or those
    of the allocation that the reader was given. -/
def KnownTargets (sent : List Message) (allocated : List Allocation) (n : Nat)
    (tensors : List SentTensor) : Prop :=
  ∃ message, sent[n]? = some message
    ∧ ((messageHasMissingTargetDevices message = false ∧ tensors = tensorsOfMessage message)
      ∨ ∃ allocation, Allocated sent allocated n message allocation
        ∧ tensors = resolvedTensors message allocation)

/-- Whatever is known of the targets, they are those of the allocation. -/
theorem KnownTargets.resolved {sent : List Message} {allocated : List Allocation} {n : Nat}
    {tensors : List SentTensor} (h : KnownTargets sent allocated n tensors)
    {message : Message} {allocation : Allocation}
    (ha : Allocated sent allocated n message allocation) :
    tensors = resolvedTensors message allocation := by
  obtain ⟨message', hmsg, hcases⟩ := h
  obtain rfl := Option.some.inj (hmsg.symm.trans ha.1)
  rcases hcases with ⟨hfull, rfl⟩ | ⟨allocation', ha', rfl⟩
  · exact resolved_of_complete hfull ha.2.2
  · obtain rfl := Option.some.inj (ha'.2.1.symm.trans ha.2.1)
    rfl

theorem KnownTargets.mono {sent sent' : List Message} {allocated allocated' : List Allocation}
    {n : Nat} {tensors : List SentTensor} (h : KnownTargets sent allocated n tensors)
    (hsent : sent <+: sent') (halloc : allocated <+: allocated') :
    KnownTargets sent' allocated' n tensors := by
  obtain ⟨message, hmsg, hcases⟩ := h
  refine ⟨message, getElem?_of_beginning hsent hmsg, hcases.imp (fun hf => hf) ?_⟩
  rintro ⟨allocation, ha, hts⟩
  exact ⟨allocation, ha.mono hsent halloc, hts⟩

theorem filterMap_flatMap {α β γ : Type} {f : α → List β} {k : β → Option γ} {h : α → List γ}
    {l : List α} (hk : ∀ a ∈ l, (f a).filterMap k = h a) :
    (l.flatMap f).filterMap k = l.flatMap h := by
  rw [List.filterMap_flatMap]
  exact List.flatMap_congr hk

section Streams

variable {g g' : Gate} {sent : List Message} {allocated : List Allocation}
  {w : WriteSide} {wops : List WriteOperation} {r : ReadSide} {rops : List ReadOperation}

/-- What the writer has issued over the connections, of one kind. -/
theorem written_kind {γ : Type} {Targets : Nat → List SentTensor → Prop}
    (hw : WriteStream g sent Targets w wops) {k : WriteCall → Option γ}
    {h : Message × Nat → List γ} (hsend : ∀ c, c.isSend = true → k c = none)
    (hk : ∀ message n, (startCalls n message).filterMap k = h (message, n)) :
    w.issued.filterMap k <+: sent.zipIdx.flatMap h := by
  obtain ⟨log, hpre, hissued, -⟩ := hw.frames
  have hfilter : w.issued.filterMap k
      = (w.issued.filter (fun c => !c.isSend)).filterMap k := by
    rw [List.filterMap_filter]
    refine congrArg (fun q => List.filterMap q w.issued) ?_
    funext c
    cases hc : c.isSend with
    | true => exact hsend c hc
    | false => rfl
  rw [hfilter, hissued, filterMap_flatMap (h := fun p => h p) (fun p _ => hk p.1 p.2)]
  obtain ⟨rest, rfl⟩ := hpre
  rw [List.zipIdx_append, List.flatMap_append]
  exact List.prefix_append _ _

/-- What the reader has issued, of one kind: that of the messages it has started, and of
    the descriptor in hand. -/
theorem read_kind {γ : Type} (hr : ReadStream g sent allocated r rops) {k : ReadCall → Option γ}
    {h : Message × Allocation → Nat → List γ}
    (hk : ∀ n e, Allocated sent allocated n e.1 e.2 →
      (readCalls g n e.1 e.2).filterMap k = h e n) :
    ∃ log : List (Message × Allocation),
      (∀ n e, log[n]? = some e → Allocated sent allocated n e.1 e.2)
      ∧ log.length = r.messageBeingReadFromConnection
      ∧ r.issued.filterMap k
        = log.zipIdx.flatMap (fun p => h p.1 p.2) ++ (descriptorInHand r).filterMap k := by
  obtain ⟨log, hlog, hlen, hissued⟩ := hr.issued
  refine ⟨log, hlog, hlen, ?_⟩
  rw [hissued, List.filterMap_append]
  refine congrArg (fun l => l ++ _) (filterMap_flatMap (fun p hp => hk p.2 p.1 ?_))
  exact hlog p.2 p.1 (List.mem_zipIdx_iff_getElem?.mp hp)

/-- The messages the reader has started are the first ones sent. -/
theorem started_begin {log : List (Message × Allocation)}
    (hlog : ∀ n e, log[n]? = some e → Allocated sent allocated n e.1 e.2) :
    log.map Prod.fst <+: sent := by
  rw [List.prefix_iff_getElem?]
  intro i hi
  rw [List.length_map] at hi
  rw [(hlog i log[i] (List.getElem?_eq_getElem hi)).1, List.getElem_map]

theorem flatMap_fst {γ : Type} (h : Message → Nat → List γ) (log : List (Message × Allocation)) :
    log.zipIdx.flatMap (fun p => h p.1.1 p.2)
      = (log.map Prod.fst).zipIdx.flatMap (fun p => h p.1 p.2) := by
  rw [List.zipIdx_map, List.flatMap_map]
  rfl

/-- **The descriptor connection.**  The i-th frame written and the i-th frame read are of
    the same message, of the same kind and, for payloads, of the same length. -/
theorem frames_agree {Targets : Nat → List SentTensor → Prop}
    (hw : WriteStream g sent Targets w wops) (hr : ReadStream g' sent allocated r rops) :
    Agree (w.issued.filterMap WriteCall.frame) (r.issued.filterMap ReadCall.frame) := by
  refine agree_of_around (written_kind (h := fun p => frameKinds p.2 p.1) hw ?_
    (fun _ _ => startCalls_frames)) ?_
  · intro c hc
    cases c <;> first | rfl | exact Bool.noConfusion hc
  · obtain ⟨log, hlog, hlen, hissued⟩ := read_kind (h := fun e n => frameKinds n e.1) hr
      (k := ReadCall.frame) (fun n e he => readCalls_frames he.2.2)
    rw [flatMap_fst (fun message n => frameKinds n message)] at hissued
    obtain ⟨rest, hrest⟩ := started_begin hlog
    have hlen' : (log.map Prod.fst).length = r.messageBeingReadFromConnection := by
      rw [List.length_map, hlen]
    rw [hissued]
    generalize log.map Prod.fst = started at hrest hlen'
    subst hrest
    rw [List.zipIdx_append, List.flatMap_append]
    cases rest with
    | nil =>
        -- the reader has caught up, and may be waiting for one descriptor more
        rw [List.zipIdx_nil, List.flatMap_nil, List.append_nil]
        exact Or.inr (List.prefix_append _ _)
    | cons message rest =>
        refine Or.inl (List.prefix_append_right_inj _ |>.mpr ?_)
        rw [List.zipIdx_cons, List.flatMap_cons, frameKinds, descriptorInHand]
        by_cases hwait : r.connectionState = .awaitingPayloads
        · rw [if_pos hwait, Nat.zero_add, hlen']
          exact ⟨_, rfl⟩
        · rw [if_neg hwait]
          exact List.nil_prefix

theorem replies_begin (hr : ReadStream g' sent allocated r rops) :
    (r.issued.filterMap ReadCall.reply).map Prod.fst
      <+: sent.zipIdx.flatMap (fun p => replyNumbers p.2 p.1) := by
  obtain ⟨log, hlog, -, hissued⟩ := read_kind hr (k := ReadCall.reply)
    (h := fun e n => (replyNumbers n e.1).map (fun k =>
      (k, makeDescriptorReplyForMessage (makeDescriptorForMessage e.1) e.2)))
    (fun _ _ _ => readCalls_replies)
  have hhand : (descriptorInHand r).filterMap ReadCall.reply = [] := by
    rw [descriptorInHand]
    split <;> rfl
  rw [hissued, hhand, List.append_nil, List.map_flatMap]
  simp only [List.map_map, Function.comp_def, List.map_id']
  rw [flatMap_fst (fun message n => replyNumbers n message)]
  obtain ⟨rest, hrest⟩ := started_begin hlog
  rw [← hrest, List.zipIdx_append, List.flatMap_append]
  exact List.prefix_append _ _

/-- **The reply connection.**  The i-th reply read and the i-th reply written are for the
    same message. -/
theorem replies_agree {Targets : Nat → List SentTensor → Prop}
    (hw : WriteStream g sent Targets w wops) (hr : ReadStream g' sent allocated r rops) :
    Agree (w.issued.filterMap WriteCall.replyNumber)
      ((r.issued.filterMap ReadCall.reply).map Prod.fst) := by
  refine agree_of_prefix (written_kind (h := fun p => replyNumbers p.2 p.1) hw ?_
    (fun _ _ => startCalls_replies)) (replies_begin hr)
  intro c hc
  cases c <;> first | rfl | exact Bool.noConfusion hc

/-- **The channels.**  The i-th tensor sent and the i-th tensor received are the same
    tensor of the same message, over the same channel, and of the same length. -/
theorem transfers_agree (hw : WriteStream g sent (KnownTargets sent allocated) w wops)
    (hr : ReadStream g' sent allocated r rops)
    (htr : PipeImpl.Transposed g.channelForDevicePair g'.channelForDevicePair) :
    Agree (w.issued.filterMap WriteCall.transfer) (r.issued.filterMap ReadCall.transfer) := by
  obtain ⟨wlog, hwlog, hwissued, -⟩ := hw.tensors
  obtain ⟨rlog, hrlog, -, hrissued⟩ := read_kind hr (k := ReadCall.transfer)
    (h := fun e n => (sendCalls g n e.1 (resolvedTensors e.1 e.2)).filterMap WriteCall.transfer)
    (fun _ _ he => readCalls_transfers htr he.2.2)
  have hhand : (descriptorInHand r).filterMap ReadCall.transfer = [] := by
    rw [descriptorInHand]
    split <;> rfl
  have hfilter : w.issued.filterMap WriteCall.transfer
      = (w.issued.filter (fun c => c.isSend)).filterMap WriteCall.transfer := by
    rw [List.filterMap_filter]
    refine congrArg (fun q => List.filterMap q w.issued) ?_
    funext c
    cases c <;> rfl
  rw [hrissued, hhand, List.append_nil, hfilter, hwissued, List.filterMap_flatMap,
    List.flatMap_def, List.flatMap_def]
  refine Agree.flatten ?_
  intro k a b ha hb
  rw [List.getElem?_map, List.getElem?_zipIdx, Option.map_map] at ha hb
  obtain ⟨e, he, rfl⟩ := Option.map_eq_some_iff.mp ha
  obtain ⟨e', he', rfl⟩ := Option.map_eq_some_iff.mp hb
  obtain ⟨hmsg, htargets⟩ := hwlog k e he
  have halloc := hrlog k e' he'
  have hsame : e.1 = e'.1 := Option.some.inj (hmsg.symm.trans halloc.1)
  simp only [Function.comp_def, Nat.zero_add]
  rw [htargets.resolved halloc, hsame]

end Streams

-- ── Where the calls come from ────────────────────────────────────────────────

/-- The buffers that the writer hands out are those of its messages. -/
theorem written_from {sent : List Message} {Targets : Nat → List SentTensor → Prop} {g : Gate}
    {w : WriteSide} {ops : List WriteOperation} (h : WriteStream g sent Targets w ops)
    {call : WriteCall} (hmem : call ∈ w.issued) :
    ∃ message, sent[call.message]? = some message ∧
      match call with
      | .descriptor _ d => d = makeDescriptorForMessage message
      | .payload _ k data length => ∃ payload, message.payloads[k]? = some payload
          ∧ payload.data = data ∧ payload.length = length
      | .tensor _ _ k buffer length => ∃ tensor, message.tensors[k]? = some tensor
          ∧ tensor.buffer = buffer ∧ tensor.length = length
      | .descriptorReply _ => messageHasMissingTargetDevices message = true := by
  cases hsend : call.isSend with
  | false =>
      obtain ⟨log, hpre, hissued, -⟩ := h.frames
      have hin : call ∈ w.issued.filter (fun c => !c.isSend) :=
        List.mem_filter.mpr ⟨hmem, by rw [hsend]; rfl⟩
      rw [hissued] at hin
      obtain ⟨p, hp, hc⟩ := List.mem_flatMap.mp hin
      have hmsg := getElem?_of_beginning hpre (List.mem_zipIdx_iff_getElem?.mp hp)
      rcases List.mem_append.mp hc with hc | hc
      · rcases List.mem_cons.mp hc with rfl | hc
        · exact ⟨p.1, hmsg, rfl⟩
        · obtain ⟨q, hq, rfl⟩ := List.mem_map.mp hc
          exact ⟨p.1, hmsg, q.1, List.mem_zipIdx_iff_getElem?.mp hq, rfl, rfl⟩
      · split at hc
        next hmissing =>
          obtain rfl := List.mem_singleton.mp hc
          exact ⟨p.1, hmsg, hmissing⟩
        next => exact (List.not_mem_nil hc).elim
  | true =>
      obtain ⟨log, hlog, hissued, -⟩ := h.tensors
      have hin : call ∈ w.issued.filter (fun c => c.isSend) :=
        List.mem_filter.mpr ⟨hmem, hsend⟩
      rw [hissued] at hin
      obtain ⟨p, hp, hc⟩ := List.mem_flatMap.mp hin
      have hmsg := (hlog p.2 p.1 (List.mem_zipIdx_iff_getElem?.mp hp)).1
      obtain ⟨q, hq, rfl⟩ := List.mem_map.mp hc
      refine ⟨p.1.1, hmsg, q.1.1, ?_, rfl, rfl⟩
      have hzip := List.mem_zipIdx_iff_getElem?.mp hq
      exact (List.getElem?_zip_eq_some.mp hzip).1

/-- The buffers that the reader hands out are those of its allocations. -/
theorem read_from {sent : List Message} {allocated : List Allocation} {g : Gate} {r : ReadSide}
    {ops : List ReadOperation} (h : ReadStream g sent allocated r ops) {call : ReadCall}
    (hmem : call ∈ r.issued) :
    match call with
    | .descriptor _ => True
    | .payload n k data _ => ∃ allocation, allocated[n]? = some allocation
        ∧ allocation.payloads[k]? = some ⟨data⟩
    | .tensor _ n k buffer _ => ∃ allocation, allocated[n]? = some allocation
        ∧ allocation.tensors[k]? = some ⟨buffer⟩
    | .descriptorReply n reply => ∃ message allocation,
        Allocated sent allocated n message allocation
          ∧ reply = makeDescriptorReplyForMessage (makeDescriptorForMessage message)
            allocation := by
  obtain ⟨log, hlog, -, hissued⟩ := h.issued
  rw [hissued] at hmem
  rcases List.mem_append.mp hmem with hin | hin
  · obtain ⟨p, hp, hc⟩ := List.mem_flatMap.mp hin
    have halloc := hlog p.2 p.1 (List.mem_zipIdx_iff_getElem?.mp hp)
    rcases List.mem_cons.mp hc with rfl | hc
    · trivial
    · rcases List.mem_append.mp hc with hc | hc
      · rcases List.mem_append.mp hc with hc | hc
        · obtain ⟨q, hq, rfl⟩ := List.mem_map.mp hc
          refine ⟨p.1.2, halloc.2.1, ?_⟩
          exact (List.getElem?_zip_eq_some.mp (List.mem_zipIdx_iff_getElem?.mp hq)).1
        · rw [replyWrites] at hc
          split at hc
          · obtain rfl := List.mem_singleton.mp hc
            exact ⟨p.1.1, p.1.2, halloc, rfl⟩
          · exact (List.not_mem_nil hc).elim
      · obtain ⟨q, hq, rfl⟩ := List.mem_map.mp hc
        refine ⟨p.1.2, halloc.2.1, ?_⟩
        exact (List.getElem?_zip_eq_some.mp (List.mem_zipIdx_iff_getElem?.mp hq)).1
  · rw [descriptorInHand] at hin
    split at hin
    · obtain rfl := List.mem_singleton.mp hin
      trivial
    · exact (List.not_mem_nil hin).elim

end TpPipe
