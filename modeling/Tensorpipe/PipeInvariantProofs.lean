import Tensorpipe.PipeImplProofs

/-! # The invariant of the pipe

    Between two tasks both halves are at rest behind the gate of the pipe
    (`PipeInv`); after a task that threw, both are at least safe (`PipeSafe`).

    A handshake step writes none of the fields of the two halves; it may change
    the gate, and whenever it opens it, it advances every operation.  So the whole
    handshake needs one notion, `SameHalves`, and no invariant of its own. -/

namespace TpPipe

open TpStateMachine TpMessage TpSelect

namespace PipeImpl

/-- Both halves are at rest. -/
structure PipeInv (p : PipeImpl) : Prop where
  reads : ReadRest p.gate p.reads
  writes : WriteRest p.gate p.writes

/-- Both halves are safe. -/
structure PipeSafe (p : PipeImpl) : Prop where
  reads : ReadSafe p.reads.1 p.reads.2
  writes : WriteSafe p.writes.1 p.writes.2

/-- What holds between tasks is more than what holds within one. -/
theorem PipeInv.safe {p : PipeImpl} (h : PipeInv p) : PipeSafe p :=
  ⟨h.reads.inv.safe, h.writes.inv.safe⟩

-- ── Tasks of one half ────────────────────────────────────────────────────────

/-- A task on the reading half: the writing half and the gate stay as they are. -/
theorem onReads_inv {p : PipeImpl} (h : PipeInv p)
    {task : Gate → Reads → Outcome Reads}
    (ht : (task p.gate p.reads).Post (ReadRest p.gate) (fun y => ReadSafe y.1 y.2)) :
    (p.onReads task).Post PipeInv PipeSafe := by
  refine Outcome.Post.map (ht.imp ?_ ?_)
  · exact fun x hx => ⟨hx, h.writes⟩
  · exact fun x hx => ⟨hx, h.writes.inv.safe⟩

/-- A task on the writing half: the reading half and the gate stay as they are. -/
theorem onWrites_inv {p : PipeImpl} (h : PipeInv p)
    {task : Gate → Writes → Outcome Writes}
    (ht : (task p.gate p.writes).Post (WriteRest p.gate) (fun y => WriteSafe y.1 y.2)) :
    (p.onWrites task).Post PipeInv PipeSafe := by
  refine Outcome.Post.map (ht.imp ?_ ?_)
  · exact fun x hx => ⟨h.reads, hx⟩
  · exact fun x hx => ⟨h.reads.inv.safe, hx⟩

/-- Advancing everything settles both halves behind the present gate, whatever gate
    they were at rest behind. -/
theorem advanceAll_inv {p : PipeImpl} {g : Gate} (hr : ReadRest g p.reads)
    (hw : WriteRest g p.writes) (hg : p.error = none → g.error = none) :
    p.advanceAll.Post PipeInv PipeSafe := by
  have hreads : (p.onReads advanceAllReads).Post
      (fun q => ReadRest q.gate q.reads ∧ q.writes = p.writes ∧ q.error = p.error)
      PipeSafe := by
    refine Outcome.Post.map ((readRest_advanceAll hr hg).imp ?_ ?_)
    · exact fun x hx => ⟨hx, rfl, rfl⟩
    · exact fun x hx => ⟨hx, hw.inv.safe⟩
  refine hreads.bind ?_
  rintro q ⟨hq, hqw, hqe⟩
  have hqg : q.gate.error = none → g.error = none := by
    intro he
    refine hg ?_
    rw [← hqe]
    exact he
  have hwrites : (advanceAllWrites q.gate q.writes).Post (WriteRest q.gate)
      (fun y => WriteSafe y.1 y.2) := by
    rw [hqw]
    exact writeRest_advanceAll hw hqg
  refine Outcome.Post.map (hwrites.imp ?_ ?_)
  · exact fun x hx => ⟨hq, hx⟩
  · exact fun x hx => ⟨hq.inv.safe, hx⟩

/-- An error sweeps both halves. -/
theorem setError_inv {p : PipeImpl} (h : PipeInv p) (error : Error) :
    (p.setError error).Post PipeInv PipeSafe := by
  rw [setError]
  by_cases hskip : (p.error.isSome || error.isNone) = true
  · rw [if_pos hskip]
    exact h
  · rw [if_neg hskip]
    have hsome : error ≠ none := by
      rintro rfl
      exact hskip (by simp)
    have hall : (advanceAll { p with
        error := error
        registrationIds := ∅
        channelRegistrationIds := ∅
        channelReceivedConnections := ∅ }).Post PipeInv PipeSafe :=
      advanceAll_inv h.reads h.writes (fun he => absurd he hsome)
    refine hall.bind ?_
    exact fun q hq => ⟨hq.reads, hq.writes⟩

-- ── What is outstanding stays outstanding ────────────────────────────────────

/-- A call that was made stays pending while the operations advance. -/
theorem advanceReadOperation_keeps (g : Gate) (call : ReadCall) :
    Keeps (advanceReadOperation g) (fun r => call ∈ r.pending) := by
  have hrecv : ∀ l (r : ReadSide) (op : ReadOperation), call ∈ r.pending →
      call ∈ (receiveTensorsLoop g l r op).state.1.pending := by
    intro l
    induction l with
    | nil => intro r op hr; exact hr
    | cons p rest ih =>
        intro r op hr
        rw [receiveTensorsLoop]
        cases g.channelForDevicePair.lookup (p.1.1.buffer.device, p.1.2.sourceDevice) with
        | none => exact hr
        | some channelName =>
            dsimp only
            by_cases hhas : g.hasChannel channelName = false
            · rw [if_pos hhas]; exact hr
            · rw [if_neg hhas]; exact ih _ _ (List.mem_append_left _ hr)
  intro t ht a ha r op hr
  simp only [advanceReadOperation, List.mem_cons, List.not_mem_nil, or_false] at ht
  rcases ht with rfl | rfl | rfl | rfl | rfl | rfl | rfl | rfl <;>
    simp only [List.mem_cons, List.not_mem_nil, or_false] at ha <;>
    rcases ha with rfl | rfl | rfl <;>
    first
      | exact hr
      | exact List.mem_append_left _ hr
      | exact hrecv _ _ _ hr

/-- A write that was begun stays pending while the operations advance. -/
theorem advanceWriteOperation_keeps (g : Gate) (call : WriteCall) :
    Keeps (advanceWriteOperation g) (fun w => call ∈ w.pending) := by
  have hsend : ∀ l (w : WriteSide) (op : WriteOperation), call ∈ w.pending →
      call ∈ (sendTensorsLoop g l w op).state.1.pending := by
    intro l
    induction l with
    | nil => intro w op hw; exact hw
    | cons p rest ih =>
        intro w op hw
        rw [sendTensorsLoop]
        cases p.1.2.targetDevice with
        | none => exact hw
        | some remoteDevice =>
            dsimp only
            cases g.channelForDevicePair.lookup (p.1.2.sourceDevice, remoteDevice) with
            | none => exact hw
            | some channelName =>
                dsimp only
                by_cases hhas : g.hasChannel channelName = false
                · rw [if_pos hhas]; exact hw
                · rw [if_neg hhas]; exact ih _ _ (List.mem_append_left _ hw)
  intro t ht a ha w op hw
  simp only [advanceWriteOperation, List.mem_cons, List.not_mem_nil, or_false] at ht
  rcases ht with rfl | rfl | rfl | rfl | rfl | rfl <;>
    simp only [List.mem_cons, List.not_mem_nil, or_false] at ha <;>
    rcases ha with rfl | rfl | rfl <;>
    first
      | exact hw
      | exact List.mem_append_left _ hw
      | exact hsend _ _ _ hw

/-- Handling an error issues nothing that would replace an outstanding call. -/
theorem setError_keeps {p : PipeImpl} {error : Error} {J : Reads → Prop}
    {K : Writes → Prop}
    (hJ : ∀ g x, J x → J (advanceAllReads g x).state)
    (hK : ∀ g x, K x → K (advanceAllWrites g x).state) (hr : J p.reads)
    (hw : K p.writes) :
    J (p.setError error).state.reads ∧ K (p.setError error).state.writes := by
  rw [setError]
  by_cases hskip : (p.error.isSome || error.isNone) = true
  · rw [if_pos hskip]
    exact ⟨hr, hw⟩
  · rw [if_neg hskip, handleError, advanceAll, onReads]
    have h1 := hJ (gate { p with
      error := error
      registrationIds := ∅
      channelRegistrationIds := ∅
      channelReceivedConnections := ∅ }) p.reads hr
    dsimp only
    generalize advanceAllReads _ p.reads = o at h1 ⊢
    cases o with
    | throws x => exact ⟨h1, hw⟩
    | returns x =>
        rw [Outcome.map_returns, Outcome.bind_returns, onWrites]
        have h2 := hK (gate { p with
          error := error
          registrationIds := ∅
          channelRegistrationIds := ∅
          channelReceivedConnections := ∅
          reads := x }) p.writes hw
        dsimp only
        generalize advanceAllWrites _ p.writes = o' at h2 ⊢
        cases o' with
        | throws y => exact ⟨h1, h2⟩
        | returns y => exact ⟨h1, h2⟩

/-- An error takes no pending call away: it has still to report. -/
theorem setError_keeps_read {p : PipeImpl} (error : Error) {call : ReadCall}
    (hc : call ∈ p.reads.1.pending) :
    call ∈ (p.setError error).state.reads.1.pending :=
  (setError_keeps (J := fun x => call ∈ x.1.pending) (K := fun _ => True)
    (fun g _ hx => advanceAllOperations_keeps (advanceReadOperation_keeps g call).live hx)
    (fun _ _ _ => trivial) hc trivial).1

/-- An error takes no pending write away: it has still to report. -/
theorem setError_keeps_write {p : PipeImpl} (error : Error) {call : WriteCall}
    (hc : call ∈ p.writes.1.pending) :
    call ∈ (p.setError error).state.writes.1.pending :=
  (setError_keeps (J := fun _ => True) (K := fun x => call ∈ x.1.pending)
    (fun _ _ _ => trivial)
    (fun g _ hx => advanceAllOperations_keeps (advanceWriteOperation_keeps g call).live hx)
    trivial hc).2

-- ── The handshake ────────────────────────────────────────────────────────────

/-- A handshake step that does not open the gate. -/
structure SameHalves (p q : PipeImpl) : Prop where
  reads : q.reads = p.reads
  writes : q.writes = p.writes
  error : q.error = p.error
  state : q.state = p.state

/-- Nothing has happened yet. -/
theorem SameHalves.refl (p : PipeImpl) : SameHalves p p := ⟨rfl, rfl, rfl, rfl⟩

/-- One part of the handshake after the other. -/
theorem SameHalves.trans {p q r : PipeImpl} (h : SameHalves p q) (h' : SameHalves q r) :
    SameHalves p r :=
  ⟨h'.reads.trans h.reads, h'.writes.trans h.writes, h'.error.trans h.error,
    h'.state.trans h.state⟩

/-- The invariant speaks of the halves and of the gate only. -/
theorem SameHalves.inv {p q : PipeImpl} (h : SameHalves p q) (hp : PipeInv p) :
    PipeInv q where
  reads := by
    have hr := hp.reads
    rw [← h.reads] at hr
    refine readRest_gate hr h.error ?_
    intro hest
    rwa [show p.gate.established = (p.state == .established) from rfl, ← h.state]
  writes := by
    have hw := hp.writes
    rw [← h.writes] at hw
    refine writeRest_gate hw h.error ?_
    intro hest
    rwa [show p.gate.established = (p.state == .established) from rfl, ← h.state]

/-- Within a part of the handshake, the pipe is as safe as before it. -/
theorem SameHalves.safe {p q : PipeImpl} (h : SameHalves p q) (hp : PipeInv p) :
    PipeSafe q := (h.inv hp).safe

/-- Opening the gate advances everything. -/
theorem establish_inv {p q : PipeImpl} (hp : PipeInv p) (h : SameHalves p q) :
    q.establish.Post PipeInv PipeSafe := by
  have hr : ReadRest p.gate q.reads := by rw [h.reads]; exact hp.reads
  have hw : WriteRest p.gate q.writes := by rw [h.writes]; exact hp.writes
  have hg : q.error = none → p.gate.error = none := by
    intro he
    show p.error = none
    rw [← h.error, he]
  exact advanceAll_inv hr hw hg

/-- The last connection of the handshake opens the gate, and both halves start. -/
theorem establishIfComplete_inv {p q : PipeImpl} (hp : PipeInv p) (h : SameHalves p q) :
    q.establishIfComplete.Post PipeInv PipeSafe := by
  rw [establishIfComplete]
  by_cases hpend : q.pendingRegistrations = false
  · rw [if_pos hpend]
    exact establish_inv hp h
  · rw [if_neg hpend]
    exact h.inv hp

/-- The loop over the connections of one channel. -/
theorem registerChannelLoop_same (channelName : String) :
    ∀ (l : List Nat) (p : PipeImpl),
      SameHalves p (registerChannelLoop channelName l p).1 := by
  intro l
  induction l with
  | nil => exact SameHalves.refl
  | cons connId rest ih =>
      intro p
      have hfirst : SameHalves p
          (p.registerConnectionRequest (.channel channelName connId)).1 :=
        ⟨rfl, rfl, rfl, rfl⟩
      exact hfirst.trans (ih _)

/-- A channel registers its connections with the listeners. -/
theorem registerChannel_same (channelContext : ChannelContext) (channelName : String)
    (p : PipeImpl) : SameHalves p (p.registerChannel channelContext channelName).1 := by
  have h := registerChannelLoop_same channelName
    (List.range channelContext.numConnectionsNeeded) p
  exact ⟨h.reads, h.writes, h.error, h.state⟩

/-- The descriptor connections are registered with the listener of the transport. -/
theorem registerTransports_same (transport : SelectedTransport) (p : PipeImpl) :
    SameHalves p (p.registerTransports transport).1 := by
  rw [registerTransports]
  by_cases hname : transport.name ≠ p.transport
  · rw [if_pos hname]
    exact ⟨rfl, rfl, rfl, rfl⟩
  · rw [if_neg hname]
    exact ⟨rfl, rfl, rfl, rfl⟩

/-- The loop over the channels of the brochure, also where a channel is missing. -/
theorem registerChannelsLoop_same (context : ContextImpl) :
    ∀ (l : List ((_ : String) × UnorderedMap Device String))
      (x : PipeImpl × BrochureAnswer),
      (registerChannelsLoop context l x).Post (fun y => SameHalves x.1 y.1)
        (fun y => SameHalves x.1 y.1) := by
  intro l
  induction l with
  | nil => intro x; exact SameHalves.refl x.1
  | cons e rest ih =>
      rintro ⟨p, answer⟩
      rw [registerChannelsLoop]
      cases context.getChannel e.1 with
      | none => exact SameHalves.refl p
      | some channelContext =>
          have hfirst := registerChannel_same channelContext e.1 p
          refine (ih _).imp ?_ ?_
          · exact fun y hy => hfirst.trans hy
          · exact fun y hy => hfirst.trans hy

/-- The answer to a brochure is about connections only. -/
theorem prepareBrochureAnswer_same (context : ContextImpl) (brochure : Brochure)
    (p : PipeImpl) :
    (p.prepareBrochureAnswer context brochure).Post (fun y => SameHalves p y.1)
      (fun y => SameHalves p y.1) := by
  rw [prepareBrochureAnswer]
  have hcheck : SameHalves p (p.dcheck (p.state == .serverWaitingForBrochure)) :=
    ⟨rfl, rfl, rfl, rfl⟩
  dsimp only
  generalize p.dcheck (p.state == .serverWaitingForBrochure) = q at hcheck ⊢
  cases selectTransport brochure.transportDomainDescriptors q.listener.addresses
      context.transportsByPriority.entries with
  | none => exact hcheck
  | some transport =>
      have hreg := registerTransports_same transport q
      have hall := hcheck.trans hreg
      have hstore : ∀ m, SameHalves p
          { (q.registerTransports transport).1 with channelForDevicePair := m } :=
        fun m => ⟨hall.reads, hall.writes, hall.error, hall.state⟩
      refine (registerChannelsLoop_same context _ _).imp ?_ ?_
      · exact fun y hy => (hstore _).trans hy
      · exact fun y hy => (hstore _).trans hy

/-- The server reads the brochure. -/
theorem onReadWhileServerWaitingForBrochure_inv {p : PipeImpl} (h : PipeInv p)
    (context : ContextImpl) (brochure : Brochure) :
    (p.onReadWhileServerWaitingForBrochure context brochure).Post PipeInv PipeSafe := by
  refine (prepareBrochureAnswer_same context brochure p).chain ?_ (fun y hy => hy.safe h)
  rintro ⟨q, answer⟩ hq
  have hq' : SameHalves p (q.issue (.writeBrochureAnswer answer)) :=
    ⟨hq.reads, hq.writes, hq.error, hq.state⟩
  dsimp only
  generalize q.issue (.writeBrochureAnswer answer) = q' at hq' ⊢
  by_cases hpend : q'.pendingRegistrations = false
  · rw [if_pos hpend]
    exact establish_inv h hq'
  · rw [if_neg hpend]
    have hinv := hq'.inv h
    exact ⟨readRest_gate hinv.reads rfl (fun hx => nomatch hx),
      writeRest_gate hinv.writes rfl (fun hx => nomatch hx)⟩

/-- A connection is opened towards the server. -/
theorem openConnection_same (registrationId : Nat) (p : PipeImpl) :
    SameHalves p (p.openConnection registrationId).1 := ⟨rfl, rfl, rfl, rfl⟩

/-- The client opens the connection for the descriptors. -/
theorem openDescriptorConnection_same (answer : BrochureAnswer) (p : PipeImpl) :
    (p.openDescriptorConnection answer).Post (SameHalves p) (SameHalves p) := by
  rw [openDescriptorConnection]
  by_cases htransport : answer.transport = p.transport
  · rw [if_pos htransport]
    exact SameHalves.refl p
  · rw [if_neg htransport]
    cases answer.transportRegistrationIds.lookup .descriptor with
    | none => exact ⟨rfl, rfl, rfl, rfl⟩
    | some token => exact ⟨rfl, rfl, rfl, rfl⟩

/-- The client opens the connection for the descriptor replies. -/
theorem openDescriptorReplyConnection_same (answer : BrochureAnswer) (p : PipeImpl) :
    (p.openDescriptorReplyConnection answer).Post (SameHalves p) (SameHalves p) := by
  rw [openDescriptorReplyConnection]
  cases answer.transportRegistrationIds.lookup .descriptorReply with
  | none => exact ⟨rfl, rfl, rfl, rfl⟩
  | some token => exact ⟨rfl, rfl, rfl, rfl⟩

/-- The loop over the connections that one channel needs. -/
theorem openChannelLoop_same (registrationIds : List Nat) :
    ∀ (l : List Nat) (p : PipeImpl),
      (openChannelLoop registrationIds l p).Post (fun y => SameHalves p y.1)
        (fun y => SameHalves p y.1) := by
  intro l
  induction l with
  | nil => exact SameHalves.refl
  | cons connId rest ih =>
      intro p
      rw [openChannelLoop]
      cases registrationIds[connId]? with
      | none => exact SameHalves.refl p
      | some token =>
          have hfirst := openConnection_same token p
          refine Outcome.Post.map ((ih _).imp ?_ ?_)
          · exact fun y hy => hfirst.trans hy
          · exact fun y hy => hfirst.trans hy

/-- A channel is stored under its name. -/
theorem emplaceChannel_same (channelName : String) (channel : Channel) (p : PipeImpl) :
    SameHalves p (p.emplaceChannel channelName channel) := by
  rw [emplaceChannel]
  by_cases hin : channelName ∈ p.channels
  · rw [if_pos hin]
    exact SameHalves.refl p
  · rw [if_neg hin]
    exact ⟨rfl, rfl, rfl, rfl⟩

/-- The loop over the channels of the answer, also where one of them throws. -/
theorem openChannelsLoop_same (context : ContextImpl) (answer : BrochureAnswer) :
    ∀ (l : List String) (p : PipeImpl),
      (openChannelsLoop context answer l p).Post (SameHalves p) (SameHalves p) := by
  intro l
  induction l with
  | nil => exact SameHalves.refl
  | cons channelName rest ih =>
      intro p
      rw [openChannelsLoop]
      cases context.getChannel channelName with
      | none => exact SameHalves.refl p
      | some channelContext =>
          cases answer.channelRegistrationIds.lookup channelName with
          | none => exact SameHalves.refl p
          | some registrationIds =>
              have hcheck : SameHalves p (p.dcheck
                (channelContext.numConnectionsNeeded == registrationIds.length)) :=
                ⟨rfl, rfl, rfl, rfl⟩
              refine (openChannelLoop_same registrationIds _ _).chain ?_
                (fun y hy => hcheck.trans hy)
              intro y hy
              have hup := (hcheck.trans hy).trans
                (emplaceChannel_same channelName ⟨y.2, .connect⟩ y.1)
              exact (ih _).imp (fun z hz => hup.trans hz) (fun z hz => hup.trans hz)

/-- The client's part of the answer is about connections and channels only. -/
theorem prepareChannels_same (context : ContextImpl) (answer : BrochureAnswer)
    (p : PipeImpl) :
    (p.prepareChannels context answer).Post (SameHalves p) (SameHalves p) := by
  rw [prepareChannels]
  generalize selectChannels context.channelsByPriority answer.channelDeviceDescriptors
    = selected
  have hstore : SameHalves p
      { p with channelForDevicePair := selected.channelForDevicePair } := ⟨rfl, rfl, rfl, rfl⟩
  by_cases hcons : consistentChannelSelection answer.channelForDevicePair
      selected.channelForDevicePair = false
  · rw [if_pos hcons]
    exact hstore
  · rw [if_neg hcons]
    exact (openChannelsLoop_same context answer _ _).imp (fun q hq => hstore.trans hq)
      (fun q hq => hstore.trans hq)

/-- The client reads the answer, and its handshake is over. -/
theorem onReadWhileClientWaitingForBrochureAnswer_inv {p : PipeImpl} (h : PipeInv p)
    (context : ContextImpl) (answer : BrochureAnswer) :
    (p.onReadWhileClientWaitingForBrochureAnswer context answer).Post PipeInv PipeSafe := by
  rw [onReadWhileClientWaitingForBrochureAnswer]
  have hcheck : SameHalves p (p.dcheck (p.state == .clientWaitingForBrochureAnswer)) :=
    ⟨rfl, rfl, rfl, rfl⟩
  generalize p.dcheck (p.state == .clientWaitingForBrochureAnswer) = q at hcheck ⊢
  cases context.getTransport answer.transport with
  | none => exact hcheck.safe h
  | some transportContext =>
      dsimp only
      have hcheck' : SameHalves p (q.dcheck
          (transportContext.canCommunicateWithRemote answer.transportDomainDescriptor)) :=
        hcheck.trans ⟨rfl, rfl, rfl, rfl⟩
      generalize q.dcheck _ = q' at hcheck' ⊢
      have hopen : ((q'.openDescriptorConnection answer).bind
          (openDescriptorReplyConnection answer)).Post (SameHalves p) (SameHalves p) := by
        refine Outcome.Post.bind (P := SameHalves p) ?_ ?_
        · exact (openDescriptorConnection_same answer q').imp
            (fun z hz => hcheck'.trans hz) (fun z hz => hcheck'.trans hz)
        · intro z hz
          exact (openDescriptorReplyConnection_same answer z).imp
            (fun y hy => hz.trans hy) (fun y hy => hz.trans hy)
      have hprep : (((q'.openDescriptorConnection answer).bind
          (openDescriptorReplyConnection answer)).bind (prepareChannels context answer)).Post
          (SameHalves p) (SameHalves p) := by
        refine hopen.bind ?_
        intro z hz
        exact (prepareChannels_same context answer z).imp
          (fun y hy => hz.trans hy) (fun y hy => hz.trans hy)
      exact (hprep.imp (fun z hz => hz) (fun z hz => hz.safe h)).bind
        (fun z hz => establish_inv h hz)

/-- The server accepts a connection for the descriptors. -/
theorem onAcceptWhileServerWaitingForConnection_inv {p : PipeImpl} (h : PipeInv p)
    (connId : ConnectionId) (transport : String) (connection : Connection) :
    (p.onAcceptWhileServerWaitingForConnection connId transport connection).Post
      PipeInv PipeSafe := by
  rw [onAcceptWhileServerWaitingForConnection]
  have hcheck : SameHalves p (p.dcheck (p.state == .serverWaitingForConnections)) :=
    ⟨rfl, rfl, rfl, rfl⟩
  dsimp only
  generalize p.dcheck (p.state == .serverWaitingForConnections) = q at hcheck ⊢
  have hfail : SameHalves p (q.dcheck false) := hcheck.trans ⟨rfl, rfl, rfl, rfl⟩
  cases q.registrationIds.lookup connId with
  | none => exact hfail.safe h
  | some token =>
      refine establishIfComplete_inv h (hcheck.trans ?_)
      cases connId with
      | descriptor => exact ⟨rfl, rfl, rfl, rfl⟩
      | descriptorReply => exact ⟨rfl, rfl, rfl, rfl⟩

/-- The server accepts a connection of a channel. -/
theorem onAcceptWhileServerWaitingForChannel_inv {p : PipeImpl} (h : PipeInv p)
    (context : ContextImpl) (channelName : String) (connId : Nat) (transport : String)
    (connection : Connection) :
    (p.onAcceptWhileServerWaitingForChannel context channelName connId transport
      connection).Post PipeInv PipeSafe := by
  rw [onAcceptWhileServerWaitingForChannel]
  have hcheck : SameHalves p ((p.dcheck (p.state == .serverWaitingForConnections)).dcheck
      ((p.dcheck (p.state == .serverWaitingForConnections)).transport == transport)) :=
    ⟨rfl, rfl, rfl, rfl⟩
  dsimp only
  generalize (p.dcheck (p.state == .serverWaitingForConnections)).dcheck _ = q
    at hcheck ⊢
  have hfail : SameHalves p (q.dcheck false) := hcheck.trans ⟨rfl, rfl, rfl, rfl⟩
  cases q.channelRegistrationIds.lookup channelName with
  | none => exact hfail.safe h
  | some registrationIds =>
      cases q.channelReceivedConnections.lookup channelName with
      | none => exact hfail.safe h
      | some received =>
          dsimp only
          by_cases hout : registrationIds.length ≤ connId ∨ received.length ≤ connId
          · rw [if_pos hout]
            exact hcheck.safe h
          · rw [if_neg hout]
            generalize received.set connId (some connection) = received'
            have hstore : SameHalves p { q with channelReceivedConnections :=
                q.channelReceivedConnections.insert channelName received' } :=
              hcheck.trans ⟨rfl, rfl, rfl, rfl⟩
            by_cases hmiss : received'.any Option.isNone = true
            · rw [if_pos hmiss]
              exact hstore.inv h
            · rw [if_neg hmiss, createChannel]
              cases context.getChannel channelName with
              | none => exact hstore.safe h
              | some channelContext =>
                  refine establishIfComplete_inv h (SameHalves.trans ?_
                    (emplaceChannel_same channelName _ _))
                  exact hstore.trans ⟨rfl, rfl, rfl, rfl⟩

-- ── Runs ─────────────────────────────────────────────────────────────────────

/-- A callback that an error turns away does nothing. -/
theorem unlessError_inv {p : PipeImpl} (h : PipeInv p) {f : PipeImpl → Outcome PipeImpl}
    (hf : (f p).Post PipeInv PipeSafe) : (p.unlessError f).Post PipeInv PipeSafe := by
  rw [unlessError]
  by_cases he : p.error.isNone = true
  · rw [if_pos he]
    exact hf
  · rw [if_neg he]
    exact h

/-- **Every task keeps the invariant, or throws and leaves the halves safe.** -/
theorem run_inv {p : PipeImpl} (h : PipeInv p) (task : Task) (hallowed : Allowed task p) :
    (p.run task).Post PipeInv PipeSafe := by
  cases task with
  | readDescriptor => exact onReads_inv h (readRest_readDescriptor h.reads)
  | read allocation =>
      rw [run]
      refine onReads_inv h ?_
      exact readRest_read h.reads allocation
  | write message =>
      rw [run]
      refine onWrites_inv h ?_
      exact writeRest_write h.writes message
  | close => exact setError_inv h _
  | readDone call error descriptor =>
      have hset := setError_inv h error
      have hmem := setError_keeps_read error hallowed
      rw [run]
      cases hq : p.setError error with
      | throws q => rw [hq] at hset; exact hset
      | returns q =>
          rw [hq] at hset hmem
          rw [Outcome.bind_returns]
          refine onReads_inv hset ?_
          exact readRest_done hset.reads hmem descriptor
  | writeDone call error reply =>
      have hset := setError_inv h error
      have hmem := setError_keeps_write error hallowed
      rw [run]
      cases hq : p.setError error with
      | throws q => rw [hq] at hset; exact hset
      | returns q =>
          rw [hq] at hset hmem
          rw [Outcome.bind_returns]
          refine onWrites_inv hset ?_
          exact writeRest_done hset.writes hmem reply
  | handshakeDone index error context brochure answer =>
      rw [run]
      cases p.handshake[index]? with
      | none => exact h
      | some call =>
          have h' : PipeInv { p with handshake := p.handshake.eraseIdx index } :=
            ⟨h.reads, h.writes⟩
          refine (setError_inv h' error).bind ?_
          intro q hq
          refine unlessError_inv hq ?_
          cases call with
          | readBrochure => exact onReadWhileServerWaitingForBrochure_inv hq context brochure
          | readBrochureAnswer =>
              exact onReadWhileClientWaitingForBrochureAnswer_inv hq context answer
          | writeSpontaneousConnection => exact hq
          | writeBrochure _ => exact hq
          | writeBrochureAnswer _ => exact hq
          | writeRequestedConnection _ _ => exact hq
  | accepted registrationId error context transport connection =>
      rw [run]
      cases p.listener.connectionRequestRegistrations.lookup registrationId with
      | none => exact h
      | some request =>
          have h' : PipeInv (p.takeRequest registrationId) := ⟨h.reads, h.writes⟩
          refine (setError_inv h' error).bind ?_
          intro q hq
          refine unlessError_inv hq ?_
          cases request with
          | transport connId =>
              exact onAcceptWhileServerWaitingForConnection_inv hq connId transport connection
          | channel channelName connId =>
              exact onAcceptWhileServerWaitingForChannel_inv hq context channelName connId
                transport connection

/-- The start of a pipe is before any call. -/
theorem initFromLoop_reads (context : ContextImpl) (contextClosed : Bool) (p : PipeImpl) :
    (p.initFromLoop context contextClosed).reads = p.reads
      ∧ (p.initFromLoop context contextClosed).writes = p.writes := by
  rw [initFromLoop]
  cases contextClosed with
  | true => exact ⟨rfl, rfl⟩
  | false =>
      rw [if_neg (by decide)]
      cases p.state <;> exact ⟨rfl, rfl⟩

/-- A new pipe has nothing to advance. -/
theorem initFromLoop_inv (context : ContextImpl) (contextClosed : Bool) {p : PipeImpl}
    (hr : p.reads = ({}, [])) (hw : p.writes = ({}, [])) :
    PipeInv (p.initFromLoop context contextClosed) := by
  obtain ⟨h1, h2⟩ := initFromLoop_reads context contextClosed p
  constructor
  · rw [h1, hr]
    exact readRest_init _
  · rw [h2, hw]
    exact writeRest_init _

/-- **The invariant holds in every reachable state.** -/
theorem reachable_inv {C : Task → PipeImpl → Prop} {p : PipeImpl} (h : Reachable C p) :
    PipeInv p := by
  induction h with
  | client transport connection context contextClosed =>
      exact initFromLoop_inv context contextClosed rfl rfl
  | server listener transport connection context contextClosed =>
      exact initFromLoop_inv context contextClosed rfl rfl
  | step task _ hallowed _ hrun ih =>
      have hpost := run_inv ih task hallowed
      rw [hrun] at hpost
      exact hpost

/-- A state of a run, between two tasks or left by a last task that threw. -/
def Visited (C : Task → PipeImpl → Prop) (q : PipeImpl) : Prop :=
  Reachable C q ∨
    ∃ p task, Reachable C p ∧ Allowed task p ∧ C task p ∧ p.run task = .throws q

/-- **Every visited state is safe**, also the ones within a task and where it throws. -/
theorem visited_safe {C : Task → PipeImpl → Prop} {q : PipeImpl} (h : Visited C q) :
    PipeSafe q := by
  rcases h with hq | ⟨p, task, hp, hallowed, -, hrun⟩
  · exact (reachable_inv hq).safe
  · have hpost := run_inv (reachable_inv hp) task hallowed
    rw [hrun] at hpost
    exact hpost

end PipeImpl

end TpPipe
