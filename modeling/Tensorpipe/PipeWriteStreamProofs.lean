import Tensorpipe.PipeWriteInvariantProofs

/-! # What the writing half hands out

    `WriteInv` says where the operations stand; this module says WHICH calls have been
    issued, in which order, as a function of the messages written:

    * everything but the tensors is issued message by message: the descriptor, the
      payloads, and the read of the reply if a target device is missing (`startCalls`);
    * the tensors are handed to their channels message by message too (`sendCalls`), but
      later: a message that waits for its reply is overtaken by the frames of the next
      ones, and not by their tensors.

    `WriteStream` is the invariant, over the messages written and over what is known of
    the targets of their tensors; one lemma for each task of the writing half. -/

namespace TpStateMachine.Outcome

/-- Two postconditions hold together. -/
theorem Post.and {α : Type} {P P' Q Q' : α → Prop} {o : Outcome α} (h : o.Post P Q)
    (h' : o.Post P' Q') : o.Post (fun a => P a ∧ P' a) (fun a => Q a ∧ Q' a) := by
  cases o with
  | returns a => exact ⟨h, h'⟩
  | throws a => exact ⟨h, h'⟩

end TpStateMachine.Outcome

namespace TpPipe

open TpStateMachine TpMessage TpSelect

-- ── The calls of a message ───────────────────────────────────────────────────

/-- Whether the call sends a tensor. -/
def WriteCall.isSend : WriteCall → Bool
  | tensor _ _ _ _ _ => true
  | _ => false

/-- What starts a message: its frames, and the read of the reply if there will be one. -/
def startCalls (n : Nat) (message : Message) : List WriteCall :=
  messageFrames (newWriteOperation n message)
    ++ if messageHasMissingTargetDevices message then [.descriptorReply n] else []

/-- The sends of a message whose tensors go to these targets. -/
def sendCalls (g : Gate) (n : Nat) (message : Message) (tensors : List SentTensor) :
    List WriteCall :=
  tensorSends g { newWriteOperation n message with tensors := tensors }

theorem messageFrames_isSend (op : WriteOperation) :
    ∀ c ∈ messageFrames op, c.isSend = false := by
  intro c hc
  rcases List.mem_cons.mp hc with rfl | hc
  · rfl
  · obtain ⟨p, -, rfl⟩ := List.mem_map.mp hc
    rfl

theorem tensorSends_isSend (g : Gate) (op : WriteOperation) :
    ∀ c ∈ tensorSends g op, c.isSend = true := by
  intro c hc
  obtain ⟨p, -, rfl⟩ := List.mem_map.mp hc
  rfl

/-- A list of calls of one kind, seen through the filter of that kind or of the other. -/
theorem filter_isSend {calls : List WriteCall} {b : Bool}
    (h : ∀ c ∈ calls, c.isSend = b) :
    calls.filter (fun c => c.isSend) = (if b then calls else [])
      ∧ calls.filter (fun c => !c.isSend) = if b then [] else calls := by
  cases b with
  | true =>
      refine ⟨List.filter_eq_self.mpr h, List.filter_eq_nil_iff.mpr ?_⟩
      intro c hc hn
      rw [h c hc] at hn
      exact Bool.noConfusion hn
  | false =>
      refine ⟨List.filter_eq_nil_iff.mpr ?_, List.filter_eq_self.mpr ?_⟩
      · intro c hc hn
        rw [h c hc] at hn
        exact Bool.noConfusion hn
      · intro c hc
        rw [h c hc]
        rfl

/-- Numbering a list from zero, one entry more. -/
theorem flatMap_zipIdx_snoc {α β : Type} (f : α × Nat → List β) (l : List α) (a : α) :
    (l ++ [a]).zipIdx.flatMap f = l.zipIdx.flatMap f ++ f (a, l.length) := by
  rw [List.zipIdx_append, List.flatMap_append]
  simp

theorem sendCalls_gate {g g' : Gate} (hmap : g'.channelForDevicePair = g.channelForDevicePair)
    (n : Nat) (message : Message) (tensors : List SentTensor) :
    sendCalls g' n message tensors = sendCalls g n message tensors := by
  have hsend : tensorSend g' n = tensorSend g n := by
    funext p
    rw [tensorSend, tensorSend, hmap]
  exact congrArg (fun f => List.map f _) hsend

-- ── The invariant ────────────────────────────────────────────────────────────

/-- Everything but the tensors, message by message.  `below` is the number of messages
    not yet started, which is known while there is no error. -/
def FramesIssued (g : Gate) (sent : List Message) (issued : List WriteCall) (below : Nat) :
    Prop :=
  ∃ log, log <+: sent
    ∧ issued.filter (fun c => !c.isSend) = log.zipIdx.flatMap (fun p => startCalls p.2 p.1)
    ∧ (g.error = none → log.length + below = sent.length)

/-- The tensors, message by message.  `Targets k tensors` says that the tensors of message
    `k` may go to these targets. -/
def TensorsIssued (g : Gate) (sent : List Message) (Targets : Nat → List SentTensor → Prop)
    (issued : List WriteCall) (below : Nat) : Prop :=
  ∃ log : List (Message × List SentTensor),
    (∀ k e, log[k]? = some e → sent[k]? = some e.1 ∧ Targets k e.2)
    ∧ issued.filter (fun c => c.isSend)
      = log.zipIdx.flatMap (fun p => sendCalls g p.2 p.1.1 p.1.2)
    ∧ (g.error = none → log.length + below = sent.length)

section Issue

variable {g g' : Gate} {sent : List Message} {Targets Targets' : Nat → List SentTensor → Prop}
  {issued calls : List WriteCall} {below below' n : Nat} {message : Message}
  {tensors : List SentTensor}

/-- Calls that start no message. -/
theorem FramesIssued.same (h : FramesIssued g sent issued below)
    (hcalls : calls.filter (fun c => !c.isSend) = [])
    (hbelow : g.error = none → below' = below) :
    FramesIssued g sent (issued ++ calls) below' := by
  obtain ⟨log, hpre, hissued, hlen⟩ := h
  refine ⟨log, hpre, ?_, fun he => ?_⟩
  · rw [List.filter_append, hcalls, List.append_nil, hissued]
  · rw [hbelow he]
    exact hlen he

/-- The calls that start the next message. -/
theorem FramesIssued.start (h : FramesIssued g sent issued below) (he : g.error = none)
    (hn : n + below = sent.length) (hmsg : sent[n]? = some message)
    (hcalls : calls.filter (fun c => !c.isSend) = startCalls n message)
    (hbelow : below' + 1 = below) : FramesIssued g sent (issued ++ calls) below' := by
  obtain ⟨log, hpre, hissued, hlen⟩ := h
  have hlog : log.length = n := by
    have := hlen he
    omega
  have hlt : n < sent.length := (List.getElem?_eq_some_iff.mp hmsg).1
  refine ⟨log ++ [message], ?_, ?_, fun _ => ?_⟩
  · rw [List.prefix_iff_eq_take] at hpre ⊢
    rw [List.length_append, List.length_singleton, hlog, List.take_add_one, hmsg]
    rw [hlog] at hpre
    rw [← hpre]
    rfl
  · rw [List.filter_append, hissued, hcalls, flatMap_zipIdx_snoc, hlog]
  · rw [List.length_append, List.length_singleton]
    omega

theorem FramesIssued.push (h : FramesIssued g sent issued below) (message : Message) :
    FramesIssued g (sent ++ [message]) issued (below + 1) := by
  obtain ⟨log, hpre, hissued, hlen⟩ := h
  refine ⟨log, hpre.trans (List.prefix_append _ _), hissued, fun he => ?_⟩
  rw [List.length_append, List.length_singleton]
  have := hlen he
  omega

theorem FramesIssued.gate (h : FramesIssued g sent issued below)
    (hg : g'.error = none → g.error = none) : FramesIssued g' sent issued below := by
  obtain ⟨log, hpre, hissued, hlen⟩ := h
  exact ⟨log, hpre, hissued, fun he => hlen (hg he)⟩

/-- Calls that send no tensor. -/
theorem TensorsIssued.same (h : TensorsIssued g sent Targets issued below)
    (hcalls : calls.filter (fun c => c.isSend) = [])
    (hbelow : g.error = none → below' = below) :
    TensorsIssued g sent Targets (issued ++ calls) below' := by
  obtain ⟨log, hlog, hissued, hlen⟩ := h
  refine ⟨log, hlog, ?_, fun he => ?_⟩
  · rw [List.filter_append, hcalls, List.append_nil, hissued]
  · rw [hbelow he]
    exact hlen he

/-- The tensors of the next message. -/
theorem TensorsIssued.send (h : TensorsIssued g sent Targets issued below)
    (he : g.error = none) (hn : n + below = sent.length) (hmsg : sent[n]? = some message)
    (htargets : Targets n tensors)
    (hcalls : calls.filter (fun c => c.isSend) = sendCalls g n message tensors)
    (hbelow : below' + 1 = below) :
    TensorsIssued g sent Targets (issued ++ calls) below' := by
  obtain ⟨log, hlog, hissued, hlen⟩ := h
  have hn' : log.length = n := by
    have := hlen he
    omega
  refine ⟨log ++ [(message, tensors)], ?_, ?_, fun _ => ?_⟩
  · intro k e hk
    rcases Nat.lt_or_ge k log.length with hlt | hge
    · rw [List.getElem?_append_left hlt] at hk
      exact hlog k e hk
    · rw [List.getElem?_append_right hge] at hk
      have hk0 : k - log.length = 0 := by
        have := (List.getElem?_eq_some_iff.mp hk).1
        rw [List.length_singleton] at this
        omega
      rw [hk0] at hk
      obtain rfl := Option.some.inj hk
      obtain rfl : k = n := by omega
      exact ⟨hmsg, htargets⟩
  · rw [List.filter_append, hissued, hcalls, flatMap_zipIdx_snoc, hn']
  · rw [List.length_append, List.length_singleton]
    omega

/-- More messages, and more known of the targets. -/
theorem TensorsIssued.mono {sent' : List Message}
    (h : TensorsIssued g sent Targets issued below) (hsent : sent <+: sent')
    (hmore : ∀ k ts, Targets k ts → Targets' k ts)
    (hbelow : g.error = none → below' + sent.length = below + sent'.length) :
    TensorsIssued g sent' Targets' issued below' := by
  obtain ⟨log, hlog, hissued, hlen⟩ := h
  refine ⟨log, ?_, hissued, fun he => ?_⟩
  · intro k e hk
    obtain ⟨h1, h2⟩ := hlog k e hk
    refine ⟨?_, hmore k _ h2⟩
    obtain ⟨rest, rfl⟩ := hsent
    rw [List.getElem?_append_left (List.getElem?_eq_some_iff.mp h1).1]
    exact h1
  · have := hlen he
    have := hbelow he
    omega

theorem TensorsIssued.gate (h : TensorsIssued g sent Targets issued below)
    (hg : g'.error = none → g.error = none)
    (hmap : g'.channelForDevicePair = g.channelForDevicePair) :
    TensorsIssued g' sent Targets issued below := by
  obtain ⟨log, hlog, hissued, hlen⟩ := h
  refine ⟨log, hlog, ?_, fun he => hlen (hg he)⟩
  rw [hissued]
  exact List.flatMap_congr (fun p _ => (sendCalls_gate hmap _ _ _).symm)

end Issue

/-- What has been issued for the messages written, and which targets the operations
    know.  No reply so far had a size of its own. -/
structure WriteStream (g : Gate) (sent : List Message)
    (Targets : Nat → List SentTensor → Prop) (w : WriteSide) (ops : List WriteOperation) :
    Prop where
  length : sent.length = w.nextMessageBeingWritten
  messages : ∀ op ∈ ops, sent[op.sequenceNumber]? = some op.message
  frames : FramesIssued g sent w.issued (writeBelow 1 ops)
  tensors : TensorsIssued g sent Targets w.issued (writeBelow 2 ops)
  targets : g.error = none → ∀ op ∈ ops,
    op.hasMissingTargetDevices = false ∨ op.doneReadingDescriptorReply = true →
    Targets op.sequenceNumber op.tensors
  replies : w.replyDchecks = true

namespace WriteStream

variable {g g' : Gate} {sent : List Message} {Targets Targets' : Nat → List SentTensor → Prop}
  {w w' : WriteSide} {pre post ops : List WriteOperation} {op op' : WriteOperation}

/-- More may be known of the targets. -/
theorem mono (h : WriteStream g sent Targets w ops)
    (hmore : ∀ k ts, Targets k ts → Targets' k ts) : WriteStream g sent Targets' w ops where
  length := h.length
  messages := h.messages
  frames := h.frames
  tensors := h.tensors.mono (List.prefix_refl _) hmore (fun _ => rfl)
  targets := fun he o ho hready => hmore _ _ (h.targets he o ho hready)
  replies := h.replies

/-- An error only takes obligations away. -/
theorem gate (h : WriteStream g sent Targets w ops) (hg : g'.error = none → g.error = none)
    (hmap : g'.channelForDevicePair = g.channelForDevicePair) :
    WriteStream g' sent Targets w ops where
  length := h.length
  messages := h.messages
  frames := h.frames.gate hg
  tensors := h.tensors.gate hg hmap
  targets := fun he => h.targets (hg he)
  replies := h.replies

/-- Rewriting one operation; what was issued is accounted for by the caller. -/
theorem replace (h : WriteStream g sent Targets w (pre ++ op :: post))
    (hnext : w'.nextMessageBeingWritten = w.nextMessageBeingWritten)
    (hreplies : w'.replyDchecks = true)
    (hseq : op'.sequenceNumber = op.sequenceNumber) (hmsg : op'.message = op.message)
    (hframes : FramesIssued g sent w'.issued (writeBelow 1 (pre ++ op' :: post)))
    (htensors : TensorsIssued g sent Targets w'.issued (writeBelow 2 (pre ++ op' :: post)))
    (htargets : g.error = none →
      op'.hasMissingTargetDevices = false ∨ op'.doneReadingDescriptorReply = true →
      Targets op'.sequenceNumber op'.tensors) :
    WriteStream g sent Targets w' (pre ++ op' :: post) where
  length := h.length.trans hnext.symm
  messages := by
    intro o ho
    rcases List.mem_append.mp ho with hpre | hmid
    · exact h.messages o (by simp [hpre])
    · rcases List.mem_cons.mp hmid with rfl | hpost
      · rw [hseq, hmsg]
        exact h.messages op (by simp)
      · exact h.messages o (by simp [hpost])
  frames := hframes
  tensors := htensors
  targets := by
    intro he o ho
    rcases List.mem_append.mp ho with hpre | hmid
    · exact h.targets he o (by simp [hpre])
    · rcases List.mem_cons.mp hmid with rfl | hpost
      · exact htargets he
      · exact h.targets he o (by simp [hpost])
  replies := hreplies

/-- Rewriting one operation without issuing anything. -/
theorem quiet (h : WriteStream g sent Targets w (pre ++ op :: post))
    (hnext : w'.nextMessageBeingWritten = w.nextMessageBeingWritten)
    (hreplies : w'.replyDchecks = true) (hissued : w'.issued = w.issued)
    (hseq : op'.sequenceNumber = op.sequenceNumber) (hmsg : op'.message = op.message)
    (hunit : g.error = none → writeUnit 1 op'.state = writeUnit 1 op.state
      ∧ writeUnit 2 op'.state = writeUnit 2 op.state)
    (htargets : g.error = none →
      op'.hasMissingTargetDevices = false ∨ op'.doneReadingDescriptorReply = true →
      Targets op'.sequenceNumber op'.tensors) :
    WriteStream g sent Targets w' (pre ++ op' :: post) := by
  refine h.replace hnext hreplies hseq hmsg ?_ ?_ htargets
  · rw [hissued, ← List.append_nil w.issued]
    refine h.frames.same rfl (fun he => ?_)
    have hb := writeBelow_replace 1 pre post op op'
    rw [(hunit he).1] at hb
    exact Nat.add_right_cancel hb
  · rw [hissued, ← List.append_nil w.issued]
    refine h.tensors.same rfl (fun he => ?_)
    have hb := writeBelow_replace 2 pre post op op'
    rw [(hunit he).2] at hb
    exact Nat.add_right_cancel hb

end WriteStream

-- ── Firing a transition ──────────────────────────────────────────────────────

/-- Both invariants of the writing half. -/
def WriteBoth (g : Gate) (sent : List Message) (Targets : Nat → List SentTensor → Prop)
    (w : WriteSide) (ops : List WriteOperation) : Prop :=
  WriteInv g w ops ∧ WriteStream g sent Targets w ops

section Fire

variable {g : Gate} {sent : List Message} {Targets : Nat → List SentTensor → Prop}
  {w : WriteSide} {pre post : List WriteOperation} {op : WriteOperation}

theorem writeStream_finish (h : WriteStream g sent Targets w (pre ++ op :: post))
    (hst : g.error ≠ none ∨ op.state = .writingPayloadsAndSendingTensors) :
    (runActions [callWriteCallback g] (w, op)).Post
      (fun y => WriteStream g sent Targets y.1 (pre ++ withState y.2 WriteState.finished :: post))
      (fun _ => True) := by
  refine h.quiet rfl h.replies rfl rfl rfl (fun he => ?_) (fun he => h.targets he op (by simp))
  rcases hst with herr | hst
  · exact absurd he herr
  · rw [hst]
    exact ⟨rfl, rfl⟩

/-- A message with all its targets: everything is issued at once. -/
theorem writeStream_write (hinv : WriteInv g w (pre ++ op :: post))
    (h : WriteStream g sent Targets w (pre ++ op :: post)) (he : g.error = none)
    (hst : op.state = .uninitialized) (hmissing : op.hasMissingTargetDevices = false)
    (hprev : 2 ≤ (lastState WriteState.finished pre).rank) :
    (runActions [writeDescriptorOfMessage, writePayloadsOfMessage, sendTensorsOfMessage g]
      (w, op)).Post
      (fun y => WriteStream g sent Targets y.1
        (pre ++ withState y.2 WriteState.writingPayloadsAndSendingTensors :: post))
      (fun _ => True) := by
  have hloc := hinv.queue.locals op (by simp)
  have htargets : ∀ t ∈ op.tensors, t.targetDevice.isSome = true := by
    rw [hloc.asked (hloc.fresh hst)]
    exact targets_of_complete (hloc.missing ▸ hmissing)
  have hcur1 := hinv.queue.cursor (k := 1) (by omega) (by rw [hst]; decide)
  have hcur2 := hinv.queue.cursor hprev (by rw [hst]; decide)
  rw [← h.length] at hcur1 hcur2
  have hstart : startCalls op.sequenceNumber op.message = messageFrames op := by
    rw [startCalls, if_neg (by rw [← hloc.missing, hmissing]; exact Bool.noConfusion),
      List.append_nil]
    rfl
  refine (writeMessage_spec hloc.length htargets).imp ?_ (fun _ _ => trivial)
  rintro y rfl
  obtain ⟨hf1, hf2⟩ := filter_isSend (messageFrames_isSend op)
  obtain ⟨ht1, ht2⟩ := filter_isSend (tensorSends_isSend g op)
  refine h.replace rfl h.replies rfl rfl ?_ ?_ (fun _ => h.targets he op (by simp))
  · refine h.frames.start he hcur1 (h.messages op (by simp)) ?_ ?_
    · rw [List.filter_append, hf2, ht2, hstart]
      exact List.append_nil _
    · have hb := writeBelow_replace 1 pre post op (withState { op with
        numPayloadsBeingWritten := op.numPayloadsBeingWritten + (payloadWrites op).length
        numTensorsBeingSent := op.numTensorsBeingSent + (tensorSends g op).length }
        WriteState.writingPayloadsAndSendingTensors)
      rw [hst] at hb
      exact hb
  · refine h.tensors.send he hcur2 (h.messages op (by simp))
      (h.targets he op (by simp) (Or.inl hmissing)) ?_ ?_
    · rw [List.filter_append, hf1, ht1]
      rfl
    · have hb := writeBelow_replace 2 pre post op (withState { op with
        numPayloadsBeingWritten := op.numPayloadsBeingWritten + (payloadWrites op).length
        numTensorsBeingSent := op.numTensorsBeingSent + (tensorSends g op).length }
        WriteState.writingPayloadsAndSendingTensors)
      rw [hst] at hb
      exact hb

/-- A message whose reply is still to come: its frames only. -/
theorem writeStream_ask (hinv : WriteInv g w (pre ++ op :: post))
    (h : WriteStream g sent Targets w (pre ++ op :: post)) (he : g.error = none)
    (hst : op.state = .uninitialized) (hmissing : op.hasMissingTargetDevices = true)
    (hprev : 1 ≤ (lastState WriteState.finished pre).rank) :
    (runActions [writeDescriptorOfMessage, writePayloadsOfMessage,
        readDescriptorReplyOfMessage] (w, op)).Post
      (fun y => WriteStream g sent Targets y.1
        (pre ++ withState y.2 WriteState.writingPayloadsAndReadingTargetDevices :: post))
      (fun _ => True) := by
  have hloc := hinv.queue.locals op (by simp)
  have hcur := hinv.queue.cursor hprev (by rw [hst]; decide)
  rw [← h.length] at hcur
  have hstart : startCalls op.sequenceNumber op.message
      = messageFrames op ++ [.descriptorReply op.sequenceNumber] := by
    rw [startCalls, if_pos (hloc.missing ▸ hmissing)]
    rfl
  have hread : runActions [readDescriptorReplyOfMessage] (w.issue (messageFrames op), { op with
        numPayloadsBeingWritten := op.numPayloadsBeingWritten + (payloadWrites op).length })
      = .returns (w.issue (messageFrames op ++ [.descriptorReply op.sequenceNumber]), { op with
        numPayloadsBeingWritten :=
          op.numPayloadsBeingWritten + (payloadWrites op).length }) := by
    rw [runActions, readDescriptorReplyOfMessage, WriteSide.dcheck_true _ hmissing,
      Outcome.bind_returns, WriteSide.issue_issue]
    rfl
  rw [writeFrames_run hloc.length, hread]
  have hcalls : ∀ c ∈ messageFrames op ++ [.descriptorReply op.sequenceNumber],
      c.isSend = false := by
    intro c hc
    rcases List.mem_append.mp hc with hc | hc
    · exact messageFrames_isSend op c hc
    · obtain rfl := List.mem_singleton.mp hc
      rfl
  obtain ⟨hf1, hf2⟩ := filter_isSend hcalls
  refine h.replace rfl h.replies rfl rfl ?_ ?_ (fun _ => h.targets he op (by simp))
  · refine h.frames.start he hcur (h.messages op (by simp)) (hf2.trans hstart.symm) ?_
    have hb := writeBelow_replace 1 pre post op (withState { op with
      numPayloadsBeingWritten := op.numPayloadsBeingWritten + (payloadWrites op).length }
      WriteState.writingPayloadsAndReadingTargetDevices)
    rw [hst] at hb
    exact hb
  · refine h.tensors.same hf1 (fun _ => ?_)
    have hb := writeBelow_replace 2 pre post op (withState { op with
      numPayloadsBeingWritten := op.numPayloadsBeingWritten + (payloadWrites op).length }
      WriteState.writingPayloadsAndReadingTargetDevices)
    rw [hst] at hb
    exact Nat.add_right_cancel hb

/-- The tensors of a message whose reply has come. -/
theorem writeStream_send (hinv : WriteInv g w (pre ++ op :: post))
    (h : WriteStream g sent Targets w (pre ++ op :: post)) (he : g.error = none)
    (hst : op.state = .writingPayloadsAndReadingTargetDevices)
    (hdone : op.doneReadingDescriptorReply = true)
    (hprev : 2 ≤ (lastState WriteState.finished pre).rank) :
    (runActions [sendTensorsOfMessage g] (w, op)).Post
      (fun y => WriteStream g sent Targets y.1
        (pre ++ withState y.2 WriteState.writingPayloadsAndSendingTensors :: post))
      (fun _ => True) := by
  have hloc := hinv.queue.locals op (by simp)
  have hcur := hinv.queue.cursor hprev (by rw [hst]; decide)
  rw [← h.length] at hcur
  rw [runActions_single]
  refine (sendTensorsOfMessage_spec w hloc.length (hloc.answered he hdone)).imp ?_
    (fun _ _ => trivial)
  rintro y rfl
  obtain ⟨ht1, ht2⟩ := filter_isSend (tensorSends_isSend g op)
  refine h.replace rfl h.replies rfl rfl ?_ ?_ (fun _ => h.targets he op (by simp))
  · refine h.frames.same ht2 (fun _ => ?_)
    have hb := writeBelow_replace 1 pre post op (withState { op with
      numTensorsBeingSent := op.numTensorsBeingSent + (tensorSends g op).length }
      WriteState.writingPayloadsAndSendingTensors)
    rw [hst] at hb
    exact Nat.add_right_cancel hb
  · refine h.tensors.send he hcur (h.messages op (by simp))
      (h.targets he op (by simp) (Or.inr hdone)) ht1 ?_
    have hb := writeBelow_replace 2 pre post op (withState { op with
      numTensorsBeingSent := op.numTensorsBeingSent + (tensorSends g op).length }
      WriteState.writingPayloadsAndSendingTensors)
    rw [hst] at hb
    exact hb

theorem writeStream_fire {t : Transition WriteSide WriteOperation WriteState}
    (hinv : WriteInv g w (pre ++ op :: post))
    (h : WriteStream g sent Targets w (pre ++ op :: post)) (ht : t ∈ advanceWriteOperation g)
    (hsrc : op.state = t.source)
    (hcond : t.cond op (lastState WriteState.finished pre) = true) :
    (runActions t.actions (w, op)).Post
      (fun y => WriteStream g sent Targets y.1 (pre ++ withState y.2 t.target :: post))
      (fun _ => True) := by
  simp only [advanceWriteOperation, List.mem_cons, List.not_mem_nil, or_false] at ht
  rcases ht with rfl | rfl | rfl | rfl | rfl | rfl <;>
    simp only [Bool.and_eq_true, decide_eq_true_eq, Option.isSome_iff_ne_none,
      Option.isNone_iff_eq_none, Bool.not_eq_true', beq_iff_eq] at hsrc hcond
  · exact writeStream_finish h (Or.inl hcond.1)
  · exact writeStream_write hinv h hcond.1.1.1 hsrc hcond.1.2 hcond.2
  · exact writeStream_ask hinv h hcond.1.1.1 hsrc hcond.1.2 hcond.2
  · exact writeStream_finish h (Or.inl hcond.1.1.1)
  · exact writeStream_send hinv h hcond.1.1 hsrc hcond.1.2 hcond.2
  · exact writeStream_finish h (Or.inr hsrc)

end Fire

-- ── The walks and the tasks ──────────────────────────────────────────────────

theorem writeStream_pop {g : Gate} {sent : List Message}
    {Targets : Nat → List SentTensor → Prop} {w : WriteSide} {ops : List WriteOperation}
    {op : WriteOperation} (h : WriteStream g sent Targets w (op :: ops))
    (hfin : op.state = .finished) : WriteStream g sent Targets w ops := by
  have hbelow : ∀ k, k ≤ 3 → writeBelow k (op :: ops) = writeBelow k ops := by
    intro k hk
    have hnot : ¬ op.state.rank < k := by rw [hfin]; exact Nat.not_lt.mpr hk
    simp [writeBelow, hnot]
  refine ⟨h.length, fun o ho => h.messages o (by simp [ho]), ?_, ?_,
    fun he o ho => h.targets he o (by simp [ho]), h.replies⟩
  · rw [← hbelow 1 (by omega)]
    exact h.frames
  · rw [← hbelow 2 (by omega)]
    exact h.tensors

/-- **Every walk keeps both invariants of the writing half.** -/
theorem writeBoth_preserves (g : Gate) (sent : List Message)
    (Targets : Nat → List SentTensor → Prop) :
    Preserves (advanceWriteOperation g) (WriteBoth g sent Targets)
      (fun w ops => WriteSafe w ops ∧ True) where
  numbered := fun _ _ h => ⟨_, h.1.queue.numbered⟩
  fire := fun _ _ _ _ _ h ht hsrc hcond =>
    (writeInv_fire h.1 ht hsrc hcond).and (writeStream_fire h.1 h.2 ht hsrc hcond)
  pop := fun _ _ _ h hfin => ⟨writeInv_pop h.1 hfin, writeStream_pop h.2 hfin⟩

section Tasks

variable {g g' : Gate} {sent : List Message} {Targets : Nat → List SentTensor → Prop}
  {x : Writes}

theorem writeBoth_init (g : Gate) : WriteBoth g [] Targets {} [] := by
  refine ⟨(writeRest_init g).inv, rfl, fun _ h => (List.not_mem_nil h).elim, ?_, ?_,
    fun _ _ h => (List.not_mem_nil h).elim, rfl⟩
  · exact ⟨[], List.prefix_refl _, rfl, fun _ => rfl⟩
  · exact ⟨[], fun k e hk => by simp at hk, rfl, fun _ => rfl⟩

theorem writeBoth_advance {w : WriteSide} {ops : List WriteOperation} (n : Nat)
    (h : WriteBoth g sent Targets w ops) :
    (advanceOperation (advanceWriteOperation g) w ops n).Post
      (fun y => WriteBoth g sent Targets y.1 y.2) (fun _ => True) :=
  (advanceOperation_preserves (writeBoth_preserves g sent Targets) n h).imp
    (fun _ hy => hy) (fun _ _ => trivial)

theorem writeBoth_advanceAll (h : WriteBoth g sent Targets x.1 x.2)
    (hg : g'.error = none → g.error = none)
    (hmap : g'.channelForDevicePair = g.channelForDevicePair) :
    (advanceAllWrites g' x).Post (fun y => WriteBoth g' sent Targets y.1 y.2)
      (fun _ => True) :=
  (advanceAllOperations_preserves (writeBoth_preserves g' sent Targets)
    ⟨h.1.gate hg, h.2.gate hg hmap⟩).imp (fun _ hy => hy) (fun _ _ => trivial)

/-- A message is written: it is the last one of those sent. -/
theorem writeBoth_write (h : WriteBoth g sent Targets x.1 x.2) (message : Message)
    (hcomplete : messageHasMissingTargetDevices message = false →
      Targets sent.length (tensorsOfMessage message)) :
    (writeFromLoop g message x).Post
      (fun y => WriteBoth g (sent ++ [message]) Targets y.1 y.2) (fun _ => True) := by
  obtain ⟨w, ops⟩ := x
  obtain ⟨hinv, hstream⟩ : WriteInv g w ops ∧ WriteStream g sent Targets w ops := h
  let op : WriteOperation := newWriteOperation w.nextMessageBeingWritten message
  have hbelow : ∀ k, 1 ≤ k → writeBelow k (ops ++ [op]) = writeBelow k ops + 1 := by
    intro k hk
    have hlt : op.state.rank < k := hk
    simp [writeBelow, hlt]
  suffices hnew : WriteBoth g (sent ++ [message]) Targets
      { w with nextMessageBeingWritten := w.nextMessageBeingWritten + 1 } (ops ++ [op]) from
    writeBoth_advance _ hnew
  constructor
  · refine ⟨hinv.queue.push message, ?_, hinv.dchecks,
      ⟨hinv.log.writesCalled, hinv.log.released⟩⟩
    have hcur := hinv.cursor
    rw [hbelow 3 (by omega)]
    show w.nextWriteCallbackToCall + _ = w.nextMessageBeingWritten + 1
    omega
  · refine ⟨?_, ?_, ?_, ?_, ?_, hstream.replies⟩
    · show (sent ++ [message]).length = w.nextMessageBeingWritten + 1
      rw [List.length_append, List.length_singleton, hstream.length]
    · intro o ho
      rcases List.mem_append.mp ho with hold | hnew
      · have hmsg := hstream.messages o hold
        rw [List.getElem?_append_left (List.getElem?_eq_some_iff.mp hmsg).1]
        exact hmsg
      · obtain rfl := List.mem_singleton.mp hnew
        show (sent ++ [message])[w.nextMessageBeingWritten]? = some message
        rw [← hstream.length, List.getElem?_concat_length]
    · rw [hbelow 1 (by omega)]
      exact hstream.frames.push message
    · rw [hbelow 2 (by omega)]
      refine hstream.tensors.mono (List.prefix_append _ _) (fun _ _ ht => ht) (fun _ => ?_)
      rw [List.length_append, List.length_singleton]
      omega
    · intro he o ho hready
      rcases List.mem_append.mp ho with hold | hnew
      · exact hstream.targets he o hold hready
      · obtain rfl := List.mem_singleton.mp hnew
        show Targets w.nextMessageBeingWritten (tensorsOfMessage message)
        rw [← hstream.length]
        exact hcomplete (hready.resolve_right Bool.noConfusion)

/-- The callback of a call of the writing half.  A reply that is read without error has to
    parse into targets that are known. -/
theorem writeBoth_done (h : WriteBoth g sent Targets x.1 x.2) {call : WriteCall}
    (hc : call ∈ x.1.pending) (reply : DescriptorReply)
    (hreply : g.error = none → ∀ n message, call = .descriptorReply n →
      sent[n]? = some message → ∀ tensors rest, parseDescriptorReplyOfMessage message.tensors
        (tensorsOfMessage message) reply.targetDevices = some (tensors, rest) →
      Targets n tensors ∧ rest = []) :
    (onWriteDone g call reply x).Post (fun y => WriteBoth g sent Targets y.1 y.2)
      (fun _ => True) := by
  obtain ⟨w, ops⟩ := x
  obtain ⟨hinv, hstream⟩ : WriteInv g w ops ∧ WriteStream g sent Targets w ops := h
  have hfind : ∀ n, call.captures = some n → ∃ pre op post, ops = pre ++ op :: post
      ∧ op.sequenceNumber = n := by
    intro n hn
    obtain ⟨op, hop, hseq⟩ := hinv.queue.captured call hc n hn
    obtain ⟨pre, post, hops⟩ := List.append_of_mem hop
    exact ⟨pre, op, post, hops, hseq⟩
  cases call with
  | descriptor n d =>
      refine ⟨⟨⟨hinv.queue.numbered, hinv.queue.chained, ?_, ?_⟩, hinv.cursor, hinv.dchecks,
        ⟨hinv.log.writesCalled, hinv.log.released⟩⟩, hstream.length, hstream.messages,
        hstream.frames, hstream.tensors, hstream.targets, hstream.replies⟩
      · intro o ho
        exact (hinv.queue.locals o ho).same
          ⟨countP_erase_of_not rfl, countP_erase_of_not rfl, countP_erase_of_not rfl⟩
      · exact fun c hcm => hinv.queue.captured c (List.mem_of_mem_erase hcm)
  | payload n payloadIdx data length =>
      obtain ⟨pre, op, post, rfl, rfl⟩ := hfind n rfl
      rw [onWriteDone, show modifyOperation op.sequenceNumber _ (pre ++ op :: post) = _
        from modifyOperation_mid hinv.queue.numbered _]
      refine writeBoth_advance _ ⟨?_, ?_⟩
      · exact writeInv_reported hinv
          (writeLocal_payload (hinv.queue.locals op (by simp)) hc) rfl rfl rfl _
      · exact hstream.quiet rfl hstream.replies rfl rfl rfl (fun _ => ⟨rfl, rfl⟩)
          (fun he => hstream.targets he op (by simp))
  | tensor channel n tensorIdx buffer length =>
      obtain ⟨pre, op, post, rfl, rfl⟩ := hfind n rfl
      rw [onWriteDone, show modifyOperation op.sequenceNumber _ (pre ++ op :: post) = _
        from modifyOperation_mid hinv.queue.numbered _]
      refine writeBoth_advance _ ⟨?_, ?_⟩
      · exact writeInv_reported hinv
          (writeLocal_tensor (hinv.queue.locals op (by simp)) hc) rfl rfl rfl _
      · exact hstream.quiet rfl hstream.replies rfl rfl rfl (fun _ => ⟨rfl, rfl⟩)
          (fun he => hstream.targets he op (by simp))
  | descriptorReply n =>
      obtain ⟨pre, op, post, rfl, rfl⟩ := hfind n rfl
      have hloc := hinv.queue.locals op (by simp)
      have hmid : (pre ++ op :: post).find?
          (fun o => o.sequenceNumber == op.sequenceNumber) = some op :=
        numbered_find hinv.queue.numbered (List.mem_append_right _ (List.mem_cons_self ..))
      rw [onWriteDone]
      dsimp only
      rw [hmid]
      dsimp only
      by_cases he : g.error.isSome = true
      · rw [if_pos he, show modifyOperation op.sequenceNumber _ (pre ++ op :: post) = _
          from modifyOperation_mid hinv.queue.numbered _]
        have hnone : ¬ g.error = none := Option.isSome_iff_ne_none.mp he
        refine writeBoth_advance _ ⟨?_, ?_⟩
        · exact writeInv_reported hinv (writeLocal_reply hloc hc hloc.length
            (fun hn => absurd hn hnone)) rfl rfl rfl _
        · exact hstream.quiet rfl hstream.replies rfl rfl rfl (fun hn => absurd hn hnone)
            (fun hn => absurd hn hnone)
      · rw [if_neg he]
        have hnone : g.error = none := by simpa using he
        cases hparse : parseDescriptorReplyOfMessage op.message.tensors op.tensors
            reply.targetDevices with
        | none => trivial
        | some result =>
            rw [writeLocal_asked hloc hc] at hparse
            obtain ⟨hlen, hall⟩ := targets_of_parse _ _ _ hparse
            dsimp only
            rw [show modifyOperation op.sequenceNumber _ (pre ++ op :: post) = _
              from modifyOperation_mid hinv.queue.numbered _]
            obtain ⟨htargets, hrest⟩ := hreply hnone op.sequenceNumber op.message rfl
              (hstream.messages op (by simp)) result.1 result.2 hparse
            refine writeBoth_advance _ ⟨?_, ?_⟩
            · exact writeInv_reported hinv (writeLocal_reply hloc hc hlen (fun _ => hall))
                rfl rfl rfl _
            · refine hstream.quiet rfl ?_ rfl rfl rfl (fun _ => ⟨rfl, rfl⟩)
                (fun _ _ => htargets)
              show (w.replyDchecks && result.2.isEmpty) = true
              rw [hstream.replies, hrest]
              rfl

end Tasks

end TpPipe
