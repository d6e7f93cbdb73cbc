import Tensorpipe.PipeImplProofs

/-! # The two ends of a handshake

    The client sends its brochure, the server answers, and both run the greedy
    channel selection: the server over the whole brochure, the client over the
    answer, which lists only the channels that won a pair on the server.

    The selection reads the remote descriptors through lookups only, so what the
    client selects from the answer is what it would select from the server's own
    map of descriptors (`selectChannels_answer`).  With that the agreement of the
    two selections, and the soundness of the client's check, carry over from the
    selection to the two handlers: `channel_selection_agreement`. -/

namespace TpPipe

open TpStateMachine TpMessage TpSelect

namespace PipeImpl

-- ── What advancing leaves alone ──────────────────────────────────────────────

/-- Advancing writes the two halves and nothing else. -/
theorem advanceAll_frame (p : PipeImpl) :
    ∃ r w, p.advanceAll.state = { p with reads := r, writes := w } := by
  rw [advanceAll, onReads]
  cases advanceAllReads p.gate p.reads with
  | throws x => exact ⟨x, p.writes, rfl⟩
  | returns x =>
      rw [Outcome.map_returns, Outcome.bind_returns, onWrites]
      dsimp only
      generalize advanceAllWrites _ p.writes = o
      cases o with
      | throws y => exact ⟨x, y, rfl⟩
      | returns y => exact ⟨x, y, rfl⟩

/-- Establishing writes the state and the two halves. -/
theorem establish_frame (p : PipeImpl) :
    ∃ r w, p.establish.state = { p with state := .established, reads := r, writes := w } :=
  advanceAll_frame { p with state := .established }

theorem establish_returns {p q : PipeImpl} (h : p.establish = .returns q) :
    ∃ r w, q = { p with state := .established, reads := r, writes := w } := by
  obtain ⟨r, w, hrw⟩ := establish_frame p
  rw [h] at hrw
  exact ⟨r, w, hrw⟩

-- ── The server's answer ──────────────────────────────────────────────────────

/-- Inserting the entries of a list one after the other. -/
theorem lookup_insertAll {κ ν : Type} [DecidableEq κ] (k : κ) :
    ∀ (es : List ((_ : κ) × ν)) (acc : UnorderedMap κ ν), es.NodupKeys →
      (es.foldl (fun acc e => acc.insert e.1 e.2) acc).lookup k
        = (es.dlookup k).or (acc.lookup k) := by
  intro es
  induction es with
  | nil => intro acc _; simp
  | cons e rest ih =>
      intro acc hnd
      obtain ⟨hfresh, hrest⟩ := List.nodupKeys_cons.mp hnd
      rw [List.foldl_cons, ih _ hrest]
      by_cases hk : k = e.1
      · subst hk
        rw [AList.lookup_insert, List.dlookup_cons_eq, List.dlookup_eq_none.mpr hfresh]
        rfl
      · rw [AList.lookup_insert_ne hk, List.dlookup_cons_ne _ _ hk]

/-- What the loop over the selected channels does to the two selections. -/
theorem registerChannelsLoop_selection (context : ContextImpl) :
    ∀ (es : List ((_ : String) × UnorderedMap Device String))
      (x : PipeImpl × BrochureAnswer),
      (registerChannelsLoop context es x).Post
        (fun y => y.1.channelForDevicePair = x.1.channelForDevicePair
          ∧ y.2.channelForDevicePair = x.2.channelForDevicePair
          ∧ y.2.channelDeviceDescriptors
            = es.foldl (fun acc e => acc.insert e.1 e.2) x.2.channelDeviceDescriptors)
        (fun _ => True) := by
  have hloop : ∀ (channelName : String) (l : List Nat) (p : PipeImpl),
      (registerChannelLoop channelName l p).1.channelForDevicePair
        = p.channelForDevicePair := by
    intro channelName l
    induction l with
    | nil => intro p; rfl
    | cons connId rest ih => intro p; exact ih _
  intro es
  induction es with
  | nil => rintro ⟨p, answer⟩; exact ⟨rfl, rfl, rfl⟩
  | cons e rest ih =>
      rintro ⟨p, answer⟩
      rw [registerChannelsLoop]
      cases context.getChannel e.1 with
      | none => trivial
      | some channelContext =>
          refine (ih _).imp ?_ (fun _ h => h)
          rintro y ⟨h1, h2, h3⟩
          exact ⟨h1.trans (hloop e.1 _ p), h2, h3⟩

/-- The server stores its selection, sends it, and lists the descriptors of exactly
    the channels that won a pair. -/
theorem prepareBrochureAnswer_selection {context : ContextImpl} {brochure : Brochure}
    {p q : PipeImpl} {answer : BrochureAnswer}
    (h : p.prepareBrochureAnswer context brochure = .returns (q, answer)) :
    q.channelForDevicePair = (selectChannels context.channelsByPriority
        brochure.channelDeviceDescriptors).channelForDevicePair
    ∧ answer.channelForDevicePair = (selectChannels context.channelsByPriority
        brochure.channelDeviceDescriptors).channelForDevicePair
    ∧ ∀ n, answer.channelDeviceDescriptors.lookup n = (selectChannels
        context.channelsByPriority brochure.channelDeviceDescriptors).descriptorsMap.lookup n := by
  rw [prepareBrochureAnswer] at h
  dsimp only at h
  generalize p.dcheck (p.state == .serverWaitingForBrochure) = p' at h
  generalize hsel : selectChannels context.channelsByPriority
    brochure.channelDeviceDescriptors = sel at h ⊢
  cases hsel : selectTransport brochure.transportDomainDescriptors p'.listener.addresses
      context.transportsByPriority.entries with
  | none =>
      rw [hsel] at h
      exact nomatch h
  | some transport =>
      rw [hsel] at h
      dsimp only at h
      have hpost := registerChannelsLoop_selection context sel.descriptorsMap.entries
        ({ (p'.registerTransports transport).1 with
            channelForDevicePair := sel.channelForDevicePair },
          { (p'.registerTransports transport).2 with
            channelForDevicePair := sel.channelForDevicePair })
      rw [h] at hpost
      obtain ⟨h1, h2, h3⟩ := hpost
      refine ⟨h1, h2, fun n => ?_⟩
      rw [h3, lookup_insertAll n _ _ sel.descriptorsMap.nodupKeys]
      show (sel.descriptorsMap.lookup n).or none = _
      exact Option.or_none

/-- The server's handler returns with this answer written last. -/
def Answers (context : ContextImpl) (brochure : Brochure) (p : PipeImpl)
    (answer : BrochureAnswer) (s : PipeImpl) : Prop :=
  p.onReadWhileServerWaitingForBrochure context brochure = .returns s
    ∧ s.handshake.getLast? = some (.writeBrochureAnswer answer)

/-- Behind the handler's result is what was prepared; the server is established at
    once if it asked for nothing, and waits otherwise. -/
theorem answers_prepared {context : ContextImpl} {brochure : Brochure} {p s : PipeImpl}
    {answer : BrochureAnswer} (h : Answers context brochure p answer s) :
    ∃ q, p.prepareBrochureAnswer context brochure = .returns (q, answer)
      ∧ ((q.pendingRegistrations = false
          ∧ (q.issue (.writeBrochureAnswer answer)).establish = .returns s)
        ∨ (q.pendingRegistrations = true
          ∧ s = { q.issue (.writeBrochureAnswer answer) with
            state := .serverWaitingForConnections })) := by
  obtain ⟨hrun, hlast⟩ := h
  rw [onReadWhileServerWaitingForBrochure] at hrun
  cases hprep : p.prepareBrochureAnswer context brochure with
  | throws x =>
      rw [hprep] at hrun
      exact nomatch hrun
  | returns x =>
      rw [hprep] at hrun
      obtain ⟨q, written⟩ := x
      simp only [Outcome.chain] at hrun
      by_cases hpend : (q.issue (.writeBrochureAnswer written)).pendingRegistrations = false
      · rw [if_pos hpend] at hrun
        have hlog : s.handshake = q.handshake ++ [.writeBrochureAnswer written] := by
          obtain ⟨r, w, rfl⟩ := establish_returns hrun
          rfl
        rw [hlog, List.getLast?_concat] at hlast
        obtain rfl := HandshakeCall.writeBrochureAnswer.inj (Option.some.inj hlast)
        exact ⟨q, rfl, Or.inl ⟨hpend, hrun⟩⟩
      · rw [if_neg hpend] at hrun
        obtain rfl := Outcome.returns.inj hrun
        have hlog : (q.issue (.writeBrochureAnswer written)).handshake
            = q.handshake ++ [.writeBrochureAnswer written] := rfl
        rw [hlog, List.getLast?_concat] at hlast
        obtain rfl := HandshakeCall.writeBrochureAnswer.inj (Option.some.inj hlast)
        exact ⟨q, rfl, Or.inr ⟨Bool.not_eq_false _ ▸ hpend, rfl⟩⟩

-- ── The client's selection ───────────────────────────────────────────────────

/-- The selection reads the remote descriptors through lookups only. -/
theorem selectChannels_congr (o : Ordered ChannelContext)
    {m m' : UnorderedMap String (UnorderedMap Device String)}
    (h : ∀ n, m.lookup n = m'.lookup n) : selectChannels o m = selectChannels o m' := by
  have hbody : selectChannel m = selectChannel m' := by
    funext result e
    rw [selectChannel, selectChannel, h e.name]
  rw [selectChannels, selectChannels, hbody]

/-- What the client selects from an answer is what it would select from the server's
    own map. -/
theorem selectChannels_answer {context : ContextImpl} {brochure : Brochure}
    {p s : PipeImpl} {answer : BrochureAnswer} (h : Answers context brochure p answer s)
    (client : Ordered ChannelContext) :
    selectChannels client answer.channelDeviceDescriptors
      = selectChannels client (selectChannels context.channelsByPriority
        brochure.channelDeviceDescriptors).descriptorsMap := by
  obtain ⟨q, hprep, -⟩ := answers_prepared h
  exact selectChannels_congr client (prepareBrochureAnswer_selection hprep).2.2

/-- The map that the server keeps is the one it sends. -/
theorem answers_map {context : ContextImpl} {brochure : Brochure} {p s : PipeImpl}
    {answer : BrochureAnswer} (h : Answers context brochure p answer s) :
    s.channelForDevicePair = (selectChannels context.channelsByPriority
        brochure.channelDeviceDescriptors).channelForDevicePair
    ∧ answer.channelForDevicePair = s.channelForDevicePair := by
  obtain ⟨q, hprep, hcases⟩ := answers_prepared h
  have hmap : s.channelForDevicePair = q.channelForDevicePair := by
    rcases hcases with ⟨-, hest⟩ | ⟨-, rfl⟩
    · obtain ⟨r, w, rfl⟩ := establish_returns hest
      rfl
    · rfl
  obtain ⟨h1, h2, -⟩ := prepareBrochureAnswer_selection hprep
  exact ⟨hmap.trans h1, h2.trans (hmap.trans h1).symm⟩

theorem openChannelLoop_map (registrationIds : List Nat) :
    ∀ (l : List Nat) (p : PipeImpl),
      (openChannelLoop registrationIds l p).Post
        (fun y => y.1.channelForDevicePair = p.channelForDevicePair) (fun _ => True) := by
  intro l
  induction l with
  | nil => intro p; exact rfl
  | cons connId rest ih =>
      intro p
      rw [openChannelLoop]
      cases registrationIds[connId]? with
      | none => trivial
      | some token => exact Outcome.Post.map ((ih _).imp (fun _ h => h) (fun _ _ => trivial))

theorem openChannelsLoop_map (context : ContextImpl) (answer : BrochureAnswer) :
    ∀ (l : List String) (p : PipeImpl),
      (openChannelsLoop context answer l p).Post
        (fun y => y.channelForDevicePair = p.channelForDevicePair) (fun _ => True) := by
  intro l
  induction l with
  | nil => intro p; exact rfl
  | cons channelName rest ih =>
      intro p
      rw [openChannelsLoop]
      cases context.getChannel channelName with
      | none => trivial
      | some channelContext =>
          cases answer.channelRegistrationIds.lookup channelName with
          | none => trivial
          | some registrationIds =>
              refine Outcome.Post.chain (openChannelLoop_map registrationIds _ _)
                ?_ (fun _ _ => trivial)
              intro x hx
              refine (ih _).imp ?_ (fun _ h => h)
              intro y hy
              rw [hy, emplaceChannel]
              by_cases hmem : channelName ∈ x.1.channels
              · rw [if_pos hmem]; exact hx
              · rw [if_neg hmem]; exact hx

/-- A client whose handler returns has passed the check, is established, and keeps
    the selection it checked. -/
theorem onReadWhileClientWaitingForBrochureAnswer_returns {context : ContextImpl}
    {answer : BrochureAnswer} {p c : PipeImpl}
    (h : p.onReadWhileClientWaitingForBrochureAnswer context answer = .returns c) :
    c.state = .established
    ∧ c.channelForDevicePair = (selectChannels context.channelsByPriority
        answer.channelDeviceDescriptors).channelForDevicePair
    ∧ consistentChannelSelection answer.channelForDevicePair c.channelForDevicePair
        = true := by
  rw [onReadWhileClientWaitingForBrochureAnswer] at h
  dsimp only at h
  generalize p.dcheck (p.state == .clientWaitingForBrochureAnswer) = p' at h
  cases htr : context.getTransport answer.transport with
  | none =>
      rw [htr] at h
      exact nomatch h
  | some transportContext =>
      rw [htr] at h
      dsimp only at h
      generalize ((p'.dcheck (transportContext.canCommunicateWithRemote
        answer.transportDomainDescriptor)).openDescriptorConnection answer).bind
          (openDescriptorReplyConnection answer) = o at h
      cases o with
      | throws x => exact nomatch h
      | returns x =>
          rw [Outcome.bind_returns, prepareChannels] at h
          generalize hsel : selectChannels context.channelsByPriority
            answer.channelDeviceDescriptors = sel at h ⊢
          by_cases hcons : consistentChannelSelection answer.channelForDevicePair
              sel.channelForDevicePair = false
          · rw [if_pos hcons] at h
            exact nomatch h
          · rw [if_neg hcons] at h
            have hmap := openChannelsLoop_map context answer sel.descriptorsMap.keys
              { x with channelForDevicePair := sel.channelForDevicePair }
            generalize openChannelsLoop context answer sel.descriptorsMap.keys
              { x with channelForDevicePair := sel.channelForDevicePair } = o at h hmap
            cases o with
            | throws y => exact nomatch h
            | returns y =>
                rw [Outcome.bind_returns] at h
                obtain ⟨r, w, rfl⟩ := establish_returns h
                have hy : y.channelForDevicePair = sel.channelForDevicePair := hmap
                refine ⟨rfl, hy, ?_⟩
                show consistentChannelSelection _ y.channelForDevicePair = true
                rw [hy]
                simpa using hcons

-- ── Agreement ────────────────────────────────────────────────────────────────

/-- The selection is by priority: over whatever the remote sent, a pair gets the
    channel of highest priority among those that can serve it, or nothing if there
    is none, and the map of descriptors mentions the channels in use. -/
def SelectsByPriority (o : Ordered ChannelContext) : Prop :=
  ∀ m : UnorderedMap String (UnorderedMap Device String),
    (∀ k v, (selectChannels o m).channelForDevicePair.lookup k = some v ↔
      ∃ e ∈ o.entries, e.name = v ∧ Serves m k e
        ∧ ∀ x ∈ o.entries, x ≠ e → Serves m k x → x.priority < e.priority)
    ∧ (∀ k, (selectChannels o m).channelForDevicePair.lookup k = none ↔
      ∀ e ∈ o.entries, ¬ Serves m k e)
    ∧ ∀ n, n ∈ (selectChannels o m).descriptorsMap ↔
      ∃ k, (selectChannels o m).channelForDevicePair.lookup k = some n

theorem selectsByPriority {o : Ordered ChannelContext}
    (h : ∀ e ∈ o.entries, e.priority ≠ Int64.minValue) : SelectsByPriority o :=
  fun _ => ⟨selectChannels_spec o h, selectChannels_none o, descriptorsMap_iff o⟩

/-- One map is the other with the two devices exchanged. -/
def Transposed (m m' : UnorderedMap (Device × Device) String) : Prop :=
  ∀ l r, m.lookup (l, r) = m'.lookup (r, l)

/-- **Channel selection agreement.**  (1) Each context selects by priority.
    (2) With symmetric channels and one ranking of the common ones, what the client
    selects from the server's answer is the transpose of the server's map, and the
    client's check passes.  (3) With any priorities, a client that gets through its
    handler is established with the transpose of the server's map. -/
theorem channel_selection_agreement (server client : ContextImpl) :
    ((∀ e ∈ server.channelsByPriority.entries, e.priority ≠ Int64.minValue) →
      SelectsByPriority server.channelsByPriority)
    ∧ ((∀ e ∈ client.channelsByPriority.entries, e.priority ≠ Int64.minValue) →
      SelectsByPriority client.channelsByPriority)
    ∧ ((∀ e ∈ server.channelsByPriority.entries, e.priority ≠ Int64.minValue) →
      (∀ e ∈ client.channelsByPriority.entries, e.priority ≠ Int64.minValue) →
      Symmetric server.channelsByPriority client.channelsByPriority →
      SameOrder server.channelsByPriority client.channelsByPriority →
      ∀ p s answer, Answers server (makeBrochure client) p answer s →
        Transposed (selectChannels client.channelsByPriority
            answer.channelDeviceDescriptors).channelForDevicePair s.channelForDevicePair
        ∧ consistentChannelSelection answer.channelForDevicePair
            (selectChannels client.channelsByPriority
              answer.channelDeviceDescriptors).channelForDevicePair = true)
    ∧ ∀ p s answer, Answers server (makeBrochure client) p answer s →
      ∀ q c : PipeImpl, q.onReadWhileClientWaitingForBrochureAnswer client answer = .returns c →
        c.state = .established ∧ Transposed c.channelForDevicePair s.channelForDevicePair := by
  refine ⟨selectsByPriority, selectsByPriority, ?_, ?_⟩
  · intro hs hc hsym hord p s answer hans
    have htr : Transposed (selectChannels client.channelsByPriority
        answer.channelDeviceDescriptors).channelForDevicePair s.channelForDevicePair := by
      intro l r
      rw [selectChannels_answer hans, (answers_map hans).1]
      exact selectChannels_transpose hsym hord hs hc l r
    refine ⟨htr, ?_⟩
    rw [(answers_map hans).2]
    exact consistent_of_transpose htr
  · intro p s answer hans q c hrun
    obtain ⟨hstate, -, hcons⟩ := onReadWhileClientWaitingForBrochureAnswer_returns hrun
    rw [(answers_map hans).2] at hcons
    exact ⟨hstate, consistent_transpose hcons⟩

/-- A context with one transport and two channels on the CPU: one within a host, and
    one of lower priority that reaches everywhere. -/
def sampleHost (host : String) : ContextImpl where
  transportsByPriority := ⟨[⟨100, "uv", ⟨"", fun _ => true, true⟩⟩], by simp, by simp⟩
  channelsByPriority := ⟨[
    ⟨200, "shm", ⟨(∅ : UnorderedMap Device String).insert ⟨"cpu", 0⟩ host,
      fun l r => l == r, 1, true⟩⟩,
    ⟨100, "basic", ⟨(∅ : UnorderedMap Device String).insert ⟨"cpu", 0⟩ "any",
      fun _ _ => true, 1, true⟩⟩], List.pairwise_pair.mpr (show (-200 : Int64) < -100 by decide),
      List.pairwise_pair.mpr (show "shm" ≠ "basic" by decide)⟩

/-- A server on one host, once it has answered a client on another. -/
def sampleServer : PipeImpl :=
  (onReadWhileServerWaitingForBrochure (sampleHost "a") (makeBrochure (sampleHost "b"))
    (server { addresses := (∅ : UnorderedMap String String).insert "uv" "addr" } "uv" 0)).state

/-- The answer it wrote. -/
def sampleServerAnswer : BrochureAnswer :=
  match sampleServer.handshake.getLast? with
  | some (.writeBrochureAnswer answer) => answer
  | _ => {}

/-- That client, once it has read the answer. -/
def sampleClient : PipeImpl :=
  (onReadWhileClientWaitingForBrochureAnswer (sampleHost "b") sampleServerAnswer
    (startClient (sampleHost "b") (client "uv" 0))).state

/-- On two hosts both ends settle on the channel that reaches everywhere. -/
theorem channel_selection_agreement_hosts :
    sampleServer.channelForDevicePair.lookup (⟨"cpu", 0⟩, ⟨"cpu", 0⟩) = some "basic"
    ∧ sampleClient.state = .established
    ∧ Transposed sampleClient.channelForDevicePair sampleServer.channelForDevicePair
    ∧ consistentChannelSelection sampleServerAnswer.channelForDevicePair
        (selectChannels (sampleHost "b").channelsByPriority
          sampleServerAnswer.channelDeviceDescriptors).channelForDevicePair = true := by
  have hagree := channel_selection_agreement (sampleHost "a") (sampleHost "b")
  have hans : Answers (sampleHost "a") (makeBrochure (sampleHost "b"))
      (server { addresses := (∅ : UnorderedMap String String).insert "uv" "addr" } "uv" 0)
      sampleServerAnswer sampleServer := ⟨rfl, rfl⟩
  have hrun : onReadWhileClientWaitingForBrochureAnswer (sampleHost "b") sampleServerAnswer
      (startClient (sampleHost "b") (client "uv" 0)) = .returns sampleClient := rfl
  have hclient := hagree.2.2.2 _ _ _ hans _ _ hrun
  refine ⟨rfl, hclient.1, hclient.2, (hagree.2.2.1 ?_ ?_ ?_ ?_ _ _ _ hans).2⟩
  · rintro e he
    simp only [sampleHost, List.mem_cons, List.not_mem_nil, or_false] at he
    rcases he with rfl | rfl <;> decide
  · rintro e he
    simp only [sampleHost, List.mem_cons, List.not_mem_nil, or_false] at he
    rcases he with rfl | rfl <;> decide
  · rintro s hs c hc hname l r
    simp only [sampleHost, List.mem_cons, List.not_mem_nil, or_false] at hs hc
    rcases hs with rfl | rfl <;> rcases hc with rfl | rfl <;>
      first
        | exact absurd hname (by decide)
        | exact Bool.beq_comm
        | rfl
  · rintro s hs c hc hname s' hs' c' hc' hname'
    simp only [sampleHost, List.mem_cons, List.not_mem_nil, or_false] at hs hc hs' hc'
    rcases hs with rfl | rfl <;> rcases hc with rfl | rfl <;>
      first
        | exact absurd hname (by decide)
        | rcases hs' with rfl | rfl <;> rcases hc' with rfl | rfl <;>
            first
              | exact absurd hname' (by decide)
              | rfl

end PipeImpl

end TpPipe
