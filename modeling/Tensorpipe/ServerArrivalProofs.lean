import Tensorpipe.HandshakeProofs

/-! # The server's handshake, in every order of arrival

    The server registers one connection request for each connection that its answer
    names, and then waits.  `Registering` is what the registrations say: each
    request has its own token and its own slot, and the tokens in the answer are
    those of the registration maps.

    `Arrived` describes the waiting server by the SET of tokens that have arrived,
    through lookups alone, so two orders that have delivered the same tokens have
    led to the same state (`Arrived.unique`).  One arrival adds its token
    (`accepted_spec`), and the server has nothing pending exactly if every request
    was served (`Arrived.pending`). -/

namespace TpPipe

open TpStateMachine TpMessage TpSelect

namespace PipeImpl

/-- A check that holds changes nothing. -/
theorem dcheck_of {p : PipeImpl} {b : Bool} (h : b = true) : p.dcheck b = p := by
  rw [dcheck, h, Bool.and_true]

-- ── What was registered ──────────────────────────────────────────────────────

/-- The requests that may still report, by token. -/
abbrev requests (p : PipeImpl) : FiniteMap Nat ConnectionRequest :=
  p.listener.connectionRequestRegistrations

/-- The identifier of the next request of the listener. -/
abbrev nextToken (p : PipeImpl) : Nat := p.listener.nextConnectionRequestRegistrationId

/-- The pipe with other requests at its listener. -/
def withRequests (p : PipeImpl) (next : Nat) (requests : FiniteMap Nat ConnectionRequest) :
    PipeImpl :=
  { p with listener := { p.listener with
    nextConnectionRequestRegistrationId := next
    connectionRequestRegistrations := requests } }

/-- The registrations of a server that prepares its answer: every token stands for
    one slot, and the answer lists the tokens. -/
structure Registering (context : ContextImpl) (p : PipeImpl) (answer : BrochureAnswer) :
    Prop where
  fresh : ∀ t r, p.requests.lookup t = some r →
    t < p.nextToken
  transports : ∀ t c,
    p.requests.lookup t = some (.transport c) ↔
      p.registrationIds.lookup c = some t
  slots : ∀ t n i,
    p.requests.lookup t = some (.channel n i) ↔
      ∃ ids, p.channelRegistrationIds.lookup n = some ids ∧ ids[i]? = some t
  received : ∀ n, p.channelReceivedConnections.lookup n
    = (p.channelRegistrationIds.lookup n).map (fun ids => ids.map (fun _ => none))
  known : ∀ n ids, p.channelRegistrationIds.lookup n = some ids →
    ∃ c, context.getChannel n = some c ∧ ids.length = c.numConnectionsNeeded
  transportTokens : ∀ c, answer.transportRegistrationIds.lookup c = p.registrationIds.lookup c
  channelTokens : ∀ n,
    answer.channelRegistrationIds.lookup n = p.channelRegistrationIds.lookup n

/-- A pipe that has registered nothing. -/
structure Unregistered (p : PipeImpl) : Prop where
  requests : p.requests = ∅
  registrationIds : p.registrationIds = ∅
  channelRegistrationIds : p.channelRegistrationIds = ∅
  channelReceivedConnections : p.channelReceivedConnections = ∅
  channels : p.channels = ∅

/-- Where nothing is registered, registering may begin. -/
theorem Unregistered.registering {p : PipeImpl} (h : Unregistered p)
    (context : ContextImpl) : Registering context p {} where
  fresh := by rw [h.requests]; exact fun t r hr => nomatch hr
  transports := by
    rw [h.requests, h.registrationIds]
    simp
  slots := by
    rw [h.requests, h.channelRegistrationIds]
    simp
  received := by
    rw [h.channelReceivedConnections, h.channelRegistrationIds]
    simp
  known := by rw [h.channelRegistrationIds]; exact fun n ids hids => nomatch hids
  transportTokens := by rw [h.registrationIds]; exact fun c => rfl
  channelTokens := by rw [h.channelRegistrationIds]; exact fun n => rfl

section Registering

variable {context : ContextImpl} {p : PipeImpl} {answer : BrochureAnswer}

/-- One more transport connection, under the next token. -/
theorem Registering.transport (h : Registering context p answer) {c : ConnectionId}
    (hnew : p.registrationIds.lookup c = none) {answer' : BrochureAnswer}
    (hids : answer'.transportRegistrationIds
      = answer.transportRegistrationIds.insert c p.nextToken)
    (hchannels : answer'.channelRegistrationIds = answer.channelRegistrationIds) :
    Registering context (p.registerTransport c).1 answer' := by
  have hnext : ∀ r, p.requests.lookup
      p.nextToken ≠ some r :=
    fun r hr => Nat.lt_irrefl _ (h.fresh _ r hr)
  refine ⟨?_, ?_, ?_, h.received, h.known, ?_, ?_⟩
  · intro t r hr
    by_cases ht : t = p.nextToken
    · rw [ht]
      exact Nat.lt_succ_self _
    · refine Nat.lt_succ_of_lt (h.fresh t r ?_)
      exact (Finmap.lookup_insert_of_ne _ ht).symm.trans hr
  · intro t c'
    show (p.requests.insert p.nextToken (.transport c)).lookup t = _ ↔
      (p.registrationIds.insert c p.nextToken).lookup c' = _
    by_cases ht : t = p.nextToken
    · rw [ht, Finmap.lookup_insert]
      by_cases hc : c' = c
      · rw [hc, Finmap.lookup_insert]
        simp
      · rw [Finmap.lookup_insert_of_ne _ hc, ← h.transports]
        constructor
        · intro heq
          exact absurd (ConnectionRequest.transport.inj (Option.some.inj heq)).symm hc
        · intro heq
          exact absurd heq (hnext _)
    · rw [Finmap.lookup_insert_of_ne _ ht, h.transports]
      by_cases hc : c' = c
      · rw [hc, Finmap.lookup_insert, hnew]
        constructor
        · intro heq
          exact nomatch heq
        · intro heq
          exact absurd (Option.some.inj heq).symm ht
      · rw [Finmap.lookup_insert_of_ne _ hc]
  · intro t n i
    show (p.requests.insert p.nextToken (.transport c)).lookup t = _ ↔ _
    by_cases ht : t = p.nextToken
    · rw [ht, Finmap.lookup_insert]
      constructor
      · intro heq
        exact nomatch heq
      · intro hslot
        exact absurd ((h.slots _ n i).mpr hslot) (hnext _)
    · rw [Finmap.lookup_insert_of_ne _ ht]
      exact h.slots t n i
  · intro c'
    show _ = (p.registrationIds.insert c _).lookup c'
    rw [hids]
    by_cases hc : c' = c
    · rw [hc, AList.lookup_insert, Finmap.lookup_insert]
      rfl
    · rw [AList.lookup_insert_ne hc, Finmap.lookup_insert_of_ne _ hc]
      exact h.transportTokens c'
  · rw [hchannels]
    exact h.channelTokens

/-- The requests for the connections of a channel take consecutive tokens. -/
theorem registerChannelLoop_spec (n : String) :
    ∀ (l : List Nat) (p : PipeImpl), ∃ requests,
      registerChannelLoop n l p
        = (p.withRequests (p.nextToken + l.length) requests,
          List.range' p.nextToken l.length)
      ∧ (∀ t < p.nextToken, requests.lookup t = p.requests.lookup t)
      ∧ ∀ j, requests.lookup (p.nextToken + j)
        = (l[j]?.map (ConnectionRequest.channel n)).or
          (p.requests.lookup (p.nextToken + j)) := by
  intro l
  induction l with
  | nil =>
      intro p
      exact ⟨p.requests, rfl, fun t _ => rfl, fun j => by simp⟩
  | cons i rest ih =>
      intro p
      obtain ⟨requests, heq, hbelow, habove⟩ :=
        ih (p.registerConnectionRequest (.channel n i)).1
      refine ⟨requests, ?_, ?_, ?_⟩
      · show ((registerChannelLoop n rest (p.registerConnectionRequest (.channel n i)).1).1,
          p.nextToken :: (registerChannelLoop n rest
            (p.registerConnectionRequest (.channel n i)).1).2) = _
        rw [heq, List.length_cons, List.range'_succ, Nat.add_comm rest.length 1,
          ← Nat.add_assoc]
        rfl
      · intro t ht
        refine (hbelow t (Nat.lt_succ_of_lt ht)).trans ?_
        exact Finmap.lookup_insert_of_ne _ (Nat.ne_of_lt ht)
      · intro j
        cases j with
        | zero =>
            refine (hbelow _ (Nat.lt_succ_self _)).trans ?_
            exact Finmap.lookup_insert _
        | succ j =>
            have hj := habove j
            have hne : p.nextToken + 1 + j ≠ p.nextToken := by omega
            simp only [registerConnectionRequest] at hj
            rw [Finmap.lookup_insert_of_ne _ hne] at hj
            rw [show p.nextToken + (j + 1) = p.nextToken + 1 + j by omega, hj]
            rfl

/-- What registering a channel leaves: its connections have the next tokens, and a request is
    an old one or one of those for its own connection id. -/
theorem registerChannel_spec (h : Registering context p answer) (n : String)
    (c : ChannelContext) : ∃ requests,
    p.registerChannel c n
      = ({ p.withRequests (p.nextToken + c.numConnectionsNeeded) requests with
            channelRegistrationIds := p.channelRegistrationIds.insert n
              (List.range' p.nextToken c.numConnectionsNeeded)
            channelReceivedConnections := p.channelReceivedConnections.insert n
              (List.replicate c.numConnectionsNeeded none) },
          List.range' p.nextToken c.numConnectionsNeeded)
    ∧ ∀ t r, requests.lookup t = some r ↔ p.requests.lookup t = some r
        ∨ ∃ i < c.numConnectionsNeeded, t = p.nextToken + i ∧ r = .channel n i := by
  obtain ⟨requests, heq, hbelow, habove⟩ :=
    registerChannelLoop_spec n (List.range c.numConnectionsNeeded) p
  rw [List.length_range] at heq
  refine ⟨requests, ?_, ?_⟩
  · rw [registerChannel, heq]
    rfl
  · intro t r
    constructor
    · intro hr
      by_cases ht : t < p.nextToken
      · rw [hbelow t ht] at hr
        exact Or.inl hr
      · obtain ⟨j, rfl⟩ := Nat.exists_eq_add_of_le (Nat.le_of_not_lt ht)
        rw [habove j] at hr
        by_cases hj : j < c.numConnectionsNeeded
        · rw [List.getElem?_range hj] at hr
          exact Or.inr ⟨j, hj, rfl, (Option.some.inj hr).symm⟩
        · rw [List.getElem?_eq_none (by simpa using hj)] at hr
          exact Or.inl hr
    · rintro (hr | ⟨i, hi, rfl, rfl⟩)
      · exact (hbelow t (h.fresh t r hr)).trans hr
      · rw [habove i, List.getElem?_range hi]
        rfl

/-- The token of a connection id, among consecutive tokens. -/
theorem getElem?_tokens {start count i t : Nat} :
    (List.range' start count)[i]? = some t ↔ i < count ∧ t = start + i := by
  by_cases hi : i < count
  · rw [List.getElem?_range' hi]
    simp [hi, eq_comm]
  · rw [List.getElem?_eq_none (by simpa using hi)]
    simp [hi]

/-- One more channel: its connections take the next tokens, by connection id. -/
theorem Registering.channel (h : Registering context p answer) {n : String}
    {c : ChannelContext} (hget : context.getChannel n = some c)
    (hnew : p.channelRegistrationIds.lookup n = none) {answer' : BrochureAnswer}
    (hids : answer'.channelRegistrationIds
      = answer.channelRegistrationIds.insert n (p.registerChannel c n).2)
    (htransports : answer'.transportRegistrationIds = answer.transportRegistrationIds) :
    Registering context (p.registerChannel c n).1 answer' := by
  obtain ⟨requests, hregister, hcases⟩ := registerChannel_spec h n c
  rw [hregister] at hids ⊢
  refine ⟨?_, ?_, ?_, ?_, ?_, ?_, ?_⟩
  · intro t r hr
    rcases (hcases t r).mp hr with hr | ⟨i, hi, rfl, -⟩
    · exact Nat.lt_of_lt_of_le (h.fresh t r hr) (Nat.le_add_right _ _)
    · exact Nat.add_lt_add_left hi _
  · intro t c'
    show requests.lookup t = _ ↔ p.registrationIds.lookup c' = _
    rw [hcases, h.transports]
    constructor
    · rintro (hr | ⟨i, -, -, hr⟩)
      · exact hr
      · exact nomatch hr
    · exact Or.inl
  · intro t m i
    show requests.lookup t = _ ↔ ∃ ids, (p.channelRegistrationIds.insert n _).lookup m = _ ∧ _
    rw [hcases, h.slots]
    by_cases hm : m = n
    · subst hm
      rw [Finmap.lookup_insert, hnew]
      constructor
      · rintro (⟨ids, hids, -⟩ | ⟨j, hj, rfl, hr⟩)
        · exact nomatch hids
        · obtain ⟨-, rfl⟩ := ConnectionRequest.channel.inj hr
          exact ⟨_, rfl, getElem?_tokens.mpr ⟨hj, rfl⟩⟩
      · rintro ⟨ids, hids, hi⟩
        obtain rfl := Option.some.inj hids
        obtain ⟨hlt, rfl⟩ := getElem?_tokens.mp hi
        exact Or.inr ⟨i, hlt, rfl, rfl⟩
    · rw [Finmap.lookup_insert_of_ne _ hm]
      constructor
      · rintro (hslot | ⟨j, -, -, hr⟩)
        · exact hslot
        · exact absurd (ConnectionRequest.channel.inj hr).1 hm
      · exact Or.inl
  · intro m
    show (p.channelReceivedConnections.insert n _).lookup m
      = ((p.channelRegistrationIds.insert n _).lookup m).map _
    by_cases hm : m = n
    · subst hm
      rw [Finmap.lookup_insert, Finmap.lookup_insert, Option.map_some, List.map_const',
        List.length_range']
    · rw [Finmap.lookup_insert_of_ne _ hm, Finmap.lookup_insert_of_ne _ hm]
      exact h.received m
  · intro m ids hm
    by_cases hn : m = n
    · subst hn
      refine ⟨c, hget, ?_⟩
      rw [← Option.some.inj ((Finmap.lookup_insert _).symm.trans hm), List.length_range']
    · exact h.known m ids ((Finmap.lookup_insert_of_ne _ hn).symm.trans hm)
  · rw [htransports]
    exact h.transportTokens
  · intro m
    show _ = (p.channelRegistrationIds.insert n _).lookup m
    rw [hids]
    by_cases hm : m = n
    · subst hm
      rw [AList.lookup_insert, Finmap.lookup_insert]
    · rw [AList.lookup_insert_ne hm, Finmap.lookup_insert_of_ne _ hm]
      exact h.channelTokens m

end Registering

/-- Registering fills no slot. -/
structure SameSlots (p q : PipeImpl) : Prop where
  error : q.error = p.error
  descriptorConnection : q.descriptorConnection = p.descriptorConnection
  channels : q.channels = p.channels

/-- Slots that stay twice stay. -/
theorem SameSlots.trans {p q r : PipeImpl} (h : SameSlots p q) (h' : SameSlots q r) :
    SameSlots p r :=
  ⟨h'.error.trans h.error, h'.descriptorConnection.trans h.descriptorConnection,
    h'.channels.trans h.channels⟩

/-- The requests for the transport are registered. -/
theorem registerTransports_registering {p : PipeImpl} (h : Unregistered p)
    (context : ContextImpl) (transport : SelectedTransport) :
    Registering context (p.registerTransports transport).1
        (p.registerTransports transport).2
      ∧ SameSlots p (p.registerTransports transport).1
      ∧ (p.registerTransports transport).1.channelRegistrationIds = ∅
      ∧ (p.registerTransports transport).1.registrationIds.lookup .descriptorReply ≠ none := by
  have hstart := h.registering context
  have hnone : ∀ c, p.registrationIds.lookup c = none := by
    rw [h.registrationIds]
    exact fun c => rfl
  rw [registerTransports]
  by_cases hname : transport.name ≠ p.transport
  · rw [if_pos hname]
    have hmoved : Registering context { p with transport := transport.name } {} :=
      ⟨hstart.fresh, hstart.transports, hstart.slots, hstart.received, hstart.known,
        hstart.transportTokens, hstart.channelTokens⟩
    have hfirst : Registering context
        (registerTransport .descriptor { p with transport := transport.name }).1
        { transportRegistrationIds :=
            (∅ : UnorderedMap ConnectionId Nat).insert .descriptor p.nextToken } :=
      hmoved.transport (hnone .descriptor) rfl rfl
    refine ⟨hfirst.transport ?_ rfl rfl, ⟨rfl, rfl, rfl⟩, h.channelRegistrationIds, ?_⟩
    · exact (Finmap.lookup_insert_of_ne _ (by simp)).trans (hnone .descriptorReply)
    · dsimp only [registerTransport]
      rw [Finmap.lookup_insert]
      simp
  · rw [if_neg hname]
    refine ⟨hstart.transport (hnone .descriptorReply) rfl rfl, ⟨rfl, rfl, rfl⟩,
      h.channelRegistrationIds, ?_⟩
    dsimp only [registerTransport]
    rw [Finmap.lookup_insert]
    simp

/-- A channel registers its own requests only. -/
theorem registerChannel_slots (c : ChannelContext) (n : String) (p : PipeImpl) :
    SameSlots p (p.registerChannel c n).1
      ∧ (p.registerChannel c n).1.registrationIds = p.registrationIds
      ∧ (p.registerChannel c n).1.channelRegistrationIds
        = p.channelRegistrationIds.insert n (p.registerChannel c n).2 := by
  obtain ⟨requests, heq, -⟩ :=
    registerChannelLoop_spec n (List.range c.numConnectionsNeeded) p
  rw [registerChannel, heq]
  exact ⟨⟨rfl, rfl, rfl⟩, rfl, rfl⟩

/-- The loop over the selected channels registers each of them. -/
theorem registerChannelsLoop_registering (context : ContextImpl) :
    ∀ (es : List ((_ : String) × UnorderedMap Device String))
      (x : PipeImpl × BrochureAnswer), Registering context x.1 x.2 → es.NodupKeys →
      (∀ e ∈ es, x.1.channelRegistrationIds.lookup e.1 = none) →
      (registerChannelsLoop context es x).Post
        (fun y => Registering context y.1 y.2 ∧ SameSlots x.1 y.1
          ∧ y.1.registrationIds = x.1.registrationIds
          ∧ ∀ n, y.1.channelRegistrationIds.lookup n ≠ none →
            x.1.channelRegistrationIds.lookup n ≠ none ∨ n ∈ es.keys)
        (fun _ => True) := by
  intro es
  induction es with
  | nil => exact fun x hx _ _ => ⟨hx, ⟨rfl, rfl, rfl⟩, rfl, fun n hn => Or.inl hn⟩
  | cons e rest ih =>
      rintro ⟨p, answer⟩ hreg hnd hnew
      obtain ⟨hfresh, hrest⟩ := List.nodupKeys_cons.mp hnd
      rw [registerChannelsLoop]
      cases hget : context.getChannel e.1 with
      | none => trivial
      | some c =>
          obtain ⟨hslots, hids, hchannels⟩ := registerChannel_slots c e.1 p
          have hnext : Registering context (p.registerChannel c e.1).1 { answer with
              channelRegistrationIds :=
                answer.channelRegistrationIds.insert e.1 (p.registerChannel c e.1).2
              channelDeviceDescriptors :=
                answer.channelDeviceDescriptors.insert e.1 e.2 } :=
            hreg.channel hget (hnew e (by simp)) rfl rfl
          refine (ih (_, _) hnext hrest ?_).imp ?_ (fun _ h => h)
          · intro e' he'
            have hne : e'.1 ≠ e.1 := by
              intro heq
              refine hfresh ?_
              rw [← heq]
              exact List.mem_map_of_mem he'
            show Finmap.lookup e'.1 (p.registerChannel c e.1).1.channelRegistrationIds = none
            rw [hchannels, Finmap.lookup_insert_of_ne _ hne]
            exact hnew e' (by simp [he'])
          · rintro y ⟨h1, h2, h3, h4⟩
            refine ⟨h1, hslots.trans h2, h3.trans hids, fun n hn => ?_⟩
            rw [List.keys_cons, List.mem_cons]
            rcases h4 n hn with hold | hmem
            · by_cases hne : n = e.1
              · exact Or.inr (Or.inl hne)
              · refine Or.inl ?_
                dsimp only at hold
                rwa [hchannels, Finmap.lookup_insert_of_ne _ hne] at hold
            · exact Or.inr (Or.inr hmem)

/-- A server that has answered and waits for what it asked for. -/
structure Waiting (context : ContextImpl) (brochure : Brochure) (p : PipeImpl)
    (answer : BrochureAnswer) (q : PipeImpl) : Prop where
  state : q.state = .serverWaitingForConnections
  registering : Registering context q answer
  slots : SameSlots p q
  reply : answer.transportRegistrationIds.lookup .descriptorReply ≠ none
  selected : ∀ n, answer.channelRegistrationIds.lookup n ≠ none →
    n ∈ (selectChannels context.channelsByPriority
      brochure.channelDeviceDescriptors).descriptorsMap

/-- The answer of the server registers all its requests. -/
theorem prepareBrochureAnswer_registering {context : ContextImpl} {brochure : Brochure}
    {p q : PipeImpl} {answer : BrochureAnswer} (hp : Unregistered p)
    (h : p.prepareBrochureAnswer context brochure = .returns (q, answer)) :
    Registering context q answer ∧ SameSlots p q
      ∧ q.registrationIds.lookup .descriptorReply ≠ none
      ∧ ∀ n, q.channelRegistrationIds.lookup n ≠ none →
        n ∈ (selectChannels context.channelsByPriority
          brochure.channelDeviceDescriptors).descriptorsMap := by
  rw [prepareBrochureAnswer] at h
  dsimp only at h
  have hp' : Unregistered (p.dcheck (p.state == .serverWaitingForBrochure)) :=
    ⟨hp.requests, hp.registrationIds, hp.channelRegistrationIds,
      hp.channelReceivedConnections, hp.channels⟩
  have hslots : SameSlots p (p.dcheck (p.state == .serverWaitingForBrochure)) :=
    ⟨rfl, rfl, rfl⟩
  generalize p.dcheck (p.state == .serverWaitingForBrochure) = p' at h hp' hslots
  generalize selectChannels context.channelsByPriority
    brochure.channelDeviceDescriptors = sel at h ⊢
  cases hsel : selectTransport brochure.transportDomainDescriptors p'.listener.addresses
      context.transportsByPriority.entries with
  | none =>
      rw [hsel] at h
      exact absurd h (by simp)
  | some transport =>
      rw [hsel] at h
      dsimp only at h
      obtain ⟨hreg, hsame, hempty, hreply⟩ :=
        registerTransports_registering hp' context transport
      generalize p'.registerTransports transport = x at h hreg hsame hempty hreply
      obtain ⟨r, started⟩ := x
      dsimp only at h hreg hsame hempty hreply
      have hstart : Registering context
          { r with channelForDevicePair := sel.channelForDevicePair }
          { started with channelForDevicePair := sel.channelForDevicePair } :=
        ⟨hreg.fresh, hreg.transports, hreg.slots, hreg.received, hreg.known,
          hreg.transportTokens, hreg.channelTokens⟩
      have hnone : ∀ n, r.channelRegistrationIds.lookup n = none := by
        rw [hempty]
        exact fun n => rfl
      have hloop := registerChannelsLoop_registering context sel.descriptorsMap.entries
        (_, _) hstart sel.descriptorsMap.nodupKeys (fun e _ => hnone e.1)
      rw [h] at hloop
      obtain ⟨h1, h2, h3, h4⟩ := hloop
      refine ⟨h1, ?_, ?_, ?_⟩
      · exact (hslots.trans hsame).trans ⟨h2.error, h2.descriptorConnection, h2.channels⟩
      · intro hno
        refine hreply ?_
        rw [← hno]
        exact congrArg (Finmap.lookup _) h3.symm
      · intro n hn
        rcases h4 n hn with hold | hmem
        · exact absurd (hnone n) hold
        · exact hmem

/-- After the answer, the server waits for just these requests. -/
theorem answers_waiting {context : ContextImpl} {brochure : Brochure} {p q : PipeImpl}
    {answer : BrochureAnswer} (hp : Unregistered p)
    (h : Answers context brochure p answer q) : Waiting context brochure p answer q := by
  obtain ⟨r, hprep, hcases⟩ := answers_prepared h
  obtain ⟨hreg, hslots, hreply, hsel⟩ := prepareBrochureAnswer_registering hp hprep
  have hpend : r.pendingRegistrations = true := by
    rw [pendingRegistrations, Bool.or_eq_true, decide_eq_true_eq]
    refine Or.inl ?_
    intro hempty
    refine hreply ?_
    rw [hempty]
    rfl
  rcases hcases with ⟨hno, -⟩ | ⟨-, rfl⟩
  · rw [hpend] at hno
    exact nomatch hno
  · refine ⟨rfl, ?_, ⟨hslots.error, hslots.descriptorConnection, hslots.channels⟩, ?_, ?_⟩
    · exact ⟨hreg.fresh, hreg.transports, hreg.slots, hreg.received, hreg.known,
        hreg.transportTokens, hreg.channelTokens⟩
    · rw [hreg.transportTokens]
      exact hreply
    · intro n hn
      rw [hreg.channelTokens] at hn
      exact hsel n hn

-- ── The waiting server, by what has arrived ──────────────────────────────────

/-- Some connection of the channel has not arrived. -/
def incomplete (arrived ids : List Nat) : Bool := ids.any (fun t => !arrived.contains t)

/-- What a slot for transport connections holds, given its token. -/
def slot (conn : Nat → Connection) (arrived : List Nat) (before : Option Connection) :
    Option Nat → Option Connection
  | none => before
  | some t => if t ∈ arrived then some (conn t) else before

/-- The state of the server `q` once the connections of these tokens have arrived. -/
structure Arrived (q : PipeImpl) (conn : Nat → Connection) (arrived : List Nat)
    (s : PipeImpl) : Prop where
  same : s = { q with
    listener := { q.listener with connectionRequestRegistrations := s.requests }
    descriptorConnection := s.descriptorConnection
    descriptorReplyConnection := s.descriptorReplyConnection
    channels := s.channels
    registrationIds := s.registrationIds
    channelRegistrationIds := s.channelRegistrationIds
    channelReceivedConnections := s.channelReceivedConnections }
  requests : ∀ t, s.requests.lookup t = if t ∈ arrived then none else q.requests.lookup t
  registrationIds : ∀ c, s.registrationIds.lookup c
    = (q.registrationIds.lookup c).filter (fun t => !arrived.contains t)
  descriptor : some s.descriptorConnection
    = slot conn arrived (some q.descriptorConnection) (q.registrationIds.lookup .descriptor)
  descriptorReply : s.descriptorReplyConnection
    = slot conn arrived q.descriptorReplyConnection (q.registrationIds.lookup .descriptorReply)
  channelRegistrationIds : ∀ n, s.channelRegistrationIds.lookup n
    = (q.channelRegistrationIds.lookup n).filter (incomplete arrived)
  received : ∀ n, s.channelReceivedConnections.lookup n
    = ((q.channelRegistrationIds.lookup n).filter (incomplete arrived)).map
      (fun ids => ids.map (fun t => if t ∈ arrived then some (conn t) else none))
  channels : ∀ n, s.channels.lookup n
    = ((q.channelRegistrationIds.lookup n).filter (fun ids => !incomplete arrived ids)).map
      (fun ids => ⟨ids.map conn, .listen⟩)

/-- The state depends only on what has arrived, not on the order. -/
theorem Arrived.unique {q s s' : PipeImpl} {conn : Nat → Connection} {a b : List Nat}
    (h : Arrived q conn a s) (h' : Arrived q conn b s') (hab : ∀ t, t ∈ a ↔ t ∈ b) :
    s = s' := by
  have hcontains : ∀ t, a.contains t = b.contains t := by
    intro t
    rw [Bool.eq_iff_iff, List.contains_iff_mem, List.contains_iff_mem]
    exact hab t
  have hincomplete : incomplete a = incomplete b := by
    funext ids
    simp only [incomplete, hcontains]
  have hslot : ∀ before token, slot conn a before token = slot conn b before token := by
    intro before token
    cases token with
    | none => rfl
    | some t => simp only [slot, hab]
  have h1 : s.requests = s'.requests := by
    refine Finmap.ext_lookup (fun t => ?_)
    rw [h.requests, h'.requests]
    simp only [hab]
  have h2 : s.registrationIds = s'.registrationIds := by
    refine Finmap.ext_lookup (fun c => ?_)
    rw [h.registrationIds, h'.registrationIds]
    simp only [hcontains]
  have h3 : s.descriptorConnection = s'.descriptorConnection := by
    refine Option.some.inj ?_
    rw [h.descriptor, h'.descriptor, hslot]
  have h4 : s.descriptorReplyConnection = s'.descriptorReplyConnection := by
    rw [h.descriptorReply, h'.descriptorReply, hslot]
  have h5 : s.channelRegistrationIds = s'.channelRegistrationIds := by
    refine Finmap.ext_lookup (fun n => ?_)
    rw [h.channelRegistrationIds, h'.channelRegistrationIds, hincomplete]
  have h6 : s.channelReceivedConnections = s'.channelReceivedConnections := by
    refine Finmap.ext_lookup (fun n => ?_)
    rw [h.received, h'.received, hincomplete]
    simp only [hab]
  have h7 : s.channels = s'.channels := by
    refine Finmap.ext_lookup (fun n => ?_)
    rw [h.channels, h'.channels, hincomplete]
  rw [h.same, h'.same, h1, h2, h3, h4, h5, h6, h7]

/-- Nothing has arrived yet: every channel still lacks a connection, as it needs at
    least one. -/
theorem Registering.arrived {context : ContextImpl} {q : PipeImpl} {answer : BrochureAnswer}
    (h : Registering context q answer) (hchannels : q.channels = ∅)
    (hneeds : ∀ n ids, q.channelRegistrationIds.lookup n = some ids → ids ≠ [])
    (conn : Nat → Connection) : Arrived q conn [] q := by
  have hall : ∀ n, (q.channelRegistrationIds.lookup n).filter (incomplete [])
      = q.channelRegistrationIds.lookup n := by
    intro n
    cases hn : q.channelRegistrationIds.lookup n with
    | none => rfl
    | some ids =>
        obtain ⟨t, rest, rfl⟩ := List.exists_cons_of_ne_nil (hneeds n ids hn)
        rfl
  refine ⟨rfl, fun t => rfl, fun c => ?_, ?_, ?_, fun n => (hall n).symm, fun n => ?_,
    fun n => ?_⟩
  · cases q.registrationIds.lookup c with
    | none => rfl
    | some t => rfl
  · cases q.registrationIds.lookup .descriptor with
    | none => rfl
    | some t => rfl
  · cases q.registrationIds.lookup .descriptorReply with
    | none => rfl
    | some t => rfl
  · rw [hall n, h.received n]
    rfl
  · rw [hchannels]
    cases hn : q.channelRegistrationIds.lookup n with
    | none => rfl
    | some ids =>
        obtain ⟨t, rest, rfl⟩ := List.exists_cons_of_ne_nil (hneeds n ids hn)
        rfl

/-- A connection is incomplete while one of its requests is open. -/
theorem incomplete_eq_true {arrived ids : List Nat} :
    incomplete arrived ids = true ↔ ∃ t ∈ ids, t ∉ arrived := by
  simp [incomplete]

/-- A connection is complete when all its requests have arrived. -/
theorem incomplete_eq_false {arrived ids : List Nat} :
    incomplete arrived ids = false ↔ ∀ t ∈ ids, t ∈ arrived := by
  simp [incomplete]

/-- **Nothing is pending** exactly if every request was served. -/
theorem Arrived.pending {context : ContextImpl} {q s : PipeImpl} {answer : BrochureAnswer}
    {conn : Nat → Connection} {arrived : List Nat} (h : Arrived q conn arrived s)
    (hreg : Registering context q answer) :
    s.pendingRegistrations = false ↔ ∀ t, q.requests.lookup t ≠ none → t ∈ arrived := by
  have hempty : s.pendingRegistrations = false ↔
      s.registrationIds = ∅ ∧ s.channelRegistrationIds = ∅ := by
    rw [pendingRegistrations, Bool.or_eq_false_iff, decide_eq_false_iff_not,
      decide_eq_false_iff_not, not_not, not_not]
  rw [hempty]
  constructor
  · rintro ⟨hids, hchannels⟩ t ht
    obtain ⟨r, hr⟩ := Option.ne_none_iff_exists'.mp ht
    cases r with
    | transport c =>
        have hc := h.registrationIds c
        rw [hids, (hreg.transports t c).mp hr, Finmap.lookup_empty] at hc
        by_contra hno
        simp [Option.filter_some, hno] at hc
    | channel n i =>
        obtain ⟨ids, hn, hi⟩ := (hreg.slots t n i).mp hr
        have hc := h.channelRegistrationIds n
        rw [hchannels, hn, Finmap.lookup_empty] at hc
        have hdone : incomplete arrived ids = false := by
          by_contra hno
          rw [Option.filter_some, if_pos (by simpa using hno)] at hc
          exact nomatch hc
        exact incomplete_eq_false.mp hdone t (List.mem_of_getElem? hi)
  · intro hall
    constructor
    · refine Finmap.ext_lookup (fun c => ?_)
      rw [h.registrationIds c, Finmap.lookup_empty]
      cases hc : q.registrationIds.lookup c with
      | none => rfl
      | some t =>
          have ht : t ∈ arrived := hall t (by rw [(hreg.transports t c).mpr hc]; simp)
          simp [Option.filter_some, ht]
    · refine Finmap.ext_lookup (fun n => ?_)
      rw [h.channelRegistrationIds n, Finmap.lookup_empty]
      cases hn : q.channelRegistrationIds.lookup n with
      | none => rfl
      | some ids =>
          have hdone : incomplete arrived ids = false := by
            refine incomplete_eq_false.mpr ?_
            intro t ht
            obtain ⟨i, hi⟩ := List.mem_iff_getElem?.mp ht
            refine hall t ?_
            rw [(hreg.slots t n i).mpr ⟨ids, hn, hi⟩]
            simp
          simp [Option.filter_some, hdone]

-- ── One arrival ──────────────────────────────────────────────────────────────

section Views

variable {conn : Nat → Connection} {arrived : List Nat} {t : Nat}

/-- A slot with another token does not see the arrival. -/
theorem slot_cons {before : Option Connection} {token : Option Nat} (h : token ≠ some t) :
    slot conn (t :: arrived) before token = slot conn arrived before token := by
  cases token with
  | none => rfl
  | some u =>
      have hne : u ≠ t := fun heq => h (congrArg some heq)
      simp [slot, hne]

/-- A request that stays open stays among those. -/
theorem filter_cons {token : Option Nat} (h : token ≠ some t) :
    token.filter (fun u => !(t :: arrived).contains u)
      = token.filter (fun u => !arrived.contains u) := by
  cases token with
  | none => rfl
  | some u =>
      have hne : u ≠ t := fun heq => h (congrArg some heq)
      simp [Option.filter_some, hne]

/-- An arrival elsewhere completes nothing here. -/
theorem incomplete_cons {ids : List Nat} (h : t ∉ ids) :
    incomplete (t :: arrived) ids = incomplete arrived ids := by
  rw [Bool.eq_iff_iff, incomplete_eq_true, incomplete_eq_true]
  constructor
  · rintro ⟨u, hu, hno⟩
    exact ⟨u, hu, fun hmem => hno (List.mem_cons_of_mem t hmem)⟩
  · rintro ⟨u, hu, hno⟩
    refine ⟨u, hu, fun hmem => ?_⟩
    rcases List.mem_cons.mp hmem with rfl | hmem
    · exact h hu
    · exact hno hmem

/-- An arrival elsewhere brings nothing here. -/
theorem received_cons {ids : List Nat} (h : t ∉ ids) :
    ids.map (fun u => if u ∈ t :: arrived then some (conn u) else none)
      = ids.map (fun u => if u ∈ arrived then some (conn u) else none) := by
  refine List.map_congr_left (fun u hu => ?_)
  have hne : u ≠ t := by
    rintro rfl
    exact h hu
  simp [hne]

/-- A channel whose connections are others does not see the arrival. -/
theorem registration_cons {o : Option (List Nat)} (h : ∀ ids, o = some ids → t ∉ ids) :
    o.filter (incomplete (t :: arrived)) = o.filter (incomplete arrived) := by
  cases o with
  | none => rfl
  | some ids => rw [Option.filter_some, Option.filter_some, incomplete_cons (h ids rfl)]

/-- An arrival elsewhere leaves the channel as it was. -/
theorem channel_cons {o : Option (List Nat)} (h : ∀ ids, o = some ids → t ∉ ids) :
    (o.filter (incomplete (t :: arrived))).map
        (fun ids => ids.map (fun u => if u ∈ t :: arrived then some (conn u) else none))
      = (o.filter (incomplete arrived)).map
        (fun ids => ids.map (fun u => if u ∈ arrived then some (conn u) else none))
    ∧ (o.filter (fun ids => !incomplete (t :: arrived) ids)).map
        (fun ids => (⟨ids.map conn, .listen⟩ : Channel))
      = (o.filter (fun ids => !incomplete arrived ids)).map
        (fun ids => ⟨ids.map conn, .listen⟩) := by
  cases o with
  | none => exact ⟨rfl, rfl⟩
  | some ids =>
      have hnot := h ids rfl
      simp only [Option.filter_some, incomplete_cons hnot]
      refine ⟨?_, trivial⟩
      by_cases hinc : incomplete arrived ids = true
      · rw [if_pos hinc, Option.map_some, Option.map_some, received_cons hnot]
      · rw [if_neg hinc]
        rfl

end Views

section Arrival

variable {context : ContextImpl} {q s : PipeImpl} {answer : BrochureAnswer}
  {conn : Nat → Connection} {arrived : List Nat} {t : Nat}

/-- The token of a transport connection belongs to no channel. -/
theorem Registering.transport_token (h : Registering context q answer) {c : ConnectionId}
    (hc : q.registrationIds.lookup c = some t) :
    (∀ c' ≠ c, q.registrationIds.lookup c' ≠ some t)
    ∧ ∀ n ids, q.channelRegistrationIds.lookup n = some ids → t ∉ ids := by
  have hr := (h.transports t c).mpr hc
  constructor
  · intro c' hne hc'
    have hr' := (h.transports t c').mpr hc'
    rw [hr] at hr'
    exact hne (ConnectionRequest.transport.inj (Option.some.inj hr')).symm
  · intro n ids hn ht
    obtain ⟨i, hi⟩ := List.mem_iff_getElem?.mp ht
    have hr' := (h.slots t n i).mpr ⟨ids, hn, hi⟩
    rw [hr] at hr'
    exact nomatch hr'

/-- The token of a channel's connection belongs to no other slot. -/
theorem Registering.channel_token (h : Registering context q answer) {n : String}
    {ids : List Nat} {i : Nat} (hn : q.channelRegistrationIds.lookup n = some ids)
    (hi : ids[i]? = some t) :
    (∀ c, q.registrationIds.lookup c ≠ some t)
    ∧ (∀ m ≠ n, ∀ ids', q.channelRegistrationIds.lookup m = some ids' → t ∉ ids')
    ∧ ∀ j ≠ i, ids[j]? ≠ some t := by
  have hr := (h.slots t n i).mpr ⟨ids, hn, hi⟩
  refine ⟨?_, ?_, ?_⟩
  · intro c hc
    have hr' := (h.transports t c).mpr hc
    rw [hr] at hr'
    exact nomatch hr'
  · intro m hne ids' hm ht
    obtain ⟨j, hj⟩ := List.mem_iff_getElem?.mp ht
    have hr' := (h.slots t m j).mpr ⟨ids', hm, hj⟩
    rw [hr] at hr'
    exact hne (ConnectionRequest.channel.inj (Option.some.inj hr')).1.symm
  · intro j hne hj
    have hr' := (h.slots t n j).mpr ⟨ids, hn, hj⟩
    rw [hr] at hr'
    exact hne (ConnectionRequest.channel.inj (Option.some.inj hr')).2.symm

/-- The requests after one more arrival. -/
theorem Arrived.takeRequest (h : Arrived q conn arrived s) (u : Nat) :
    (s.takeRequest t).requests.lookup u
      = if u ∈ t :: arrived then none else q.requests.lookup u := by
  show (s.requests.erase t).lookup u = _
  by_cases hu : u = t
  · subst hu
    rw [Finmap.lookup_erase]
    simp
  · rw [Finmap.lookup_erase_ne hu, h.requests u]
    simp [hu]

/-- A transport connection arrives. -/
theorem Arrived.transport (h : Arrived q conn arrived s)
    (hreg : Registering context q answer) {c : ConnectionId}
    (hc : q.registrationIds.lookup c = some t) :
    Arrived q conn (t :: arrived)
      (setTransportConnection c (conn t)
        { s.takeRequest t with registrationIds := s.registrationIds.erase c }) := by
  obtain ⟨hothers, hchannels⟩ := hreg.transport_token hc
  refine ⟨?_, ?_, ?_, ?_, ?_, ?_, ?_, ?_⟩
  · rw [h.same]
    cases c with
    | descriptor => rfl
    | descriptorReply => rfl
  · intro u
    have hu := h.takeRequest (t := t) u
    cases c with
    | descriptor => exact hu
    | descriptorReply => exact hu
  · intro c'
    have hids : (setTransportConnection c (conn t)
        { s.takeRequest t with registrationIds := s.registrationIds.erase c }).registrationIds
        = s.registrationIds.erase c := by
      cases c with
      | descriptor => rfl
      | descriptorReply => rfl
    rw [hids]
    by_cases heq : c' = c
    · subst heq
      rw [Finmap.lookup_erase, hc]
      simp [Option.filter_some]
    · rw [Finmap.lookup_erase_ne heq, h.registrationIds c', filter_cons (hothers c' heq)]
  · cases c with
    | descriptor =>
        show some (conn t) = _
        rw [hc]
        simp [slot]
    | descriptorReply =>
        rw [slot_cons (hothers .descriptor (by simp))]
        exact h.descriptor
  · cases c with
    | descriptor =>
        rw [slot_cons (hothers .descriptorReply (by simp))]
        exact h.descriptorReply
    | descriptorReply =>
        show some (conn t) = _
        rw [hc]
        simp [slot]
  · intro n
    rw [registration_cons (hchannels n), ← h.channelRegistrationIds n]
    cases c with
    | descriptor => rfl
    | descriptorReply => rfl
  · intro n
    rw [(channel_cons (hchannels n)).1, ← h.received n]
    cases c with
    | descriptor => rfl
    | descriptorReply => rfl
  · intro n
    rw [(channel_cons (hchannels n)).2, ← h.channels n]
    cases c with
    | descriptor => rfl
    | descriptorReply => rfl

/-- What a channel has received, with the new connection in its place. -/
theorem received_set {ids : List Nat} {i : Nat} (hi : ids[i]? = some t)
    (hothers : ∀ j ≠ i, ids[j]? ≠ some t) :
    (ids.map (fun u => if u ∈ arrived then some (conn u) else none)).set i (some (conn t))
      = ids.map (fun u => if u ∈ t :: arrived then some (conn u) else none) := by
  refine List.ext_getElem? (fun j => ?_)
  rw [List.getElem?_set, List.length_map, List.getElem?_map, List.getElem?_map]
  by_cases hj : i = j
  · subst hj
    have hlt := (List.getElem?_eq_some_iff.mp hi).1
    rw [if_pos rfl, if_pos hlt, hi]
    simp
  · rw [if_neg hj]
    cases hu : ids[j]? with
    | none => rfl
    | some u =>
        have hne : u ≠ t := by
          rintro rfl
          exact hothers j (Ne.symm hj) hu
        simp [hne]

/-- A connection of a channel arrives, and others are still missing. -/
theorem Arrived.channel (h : Arrived q conn arrived s)
    (hreg : Registering context q answer) {n : String} {ids : List Nat} {i : Nat}
    (hn : q.channelRegistrationIds.lookup n = some ids) (hi : ids[i]? = some t)
    (hnew : t ∉ arrived) (hmissing : incomplete (t :: arrived) ids = true) :
    Arrived q conn (t :: arrived) { s.takeRequest t with
      channelReceivedConnections := s.channelReceivedConnections.insert n
        (ids.map (fun u => if u ∈ t :: arrived then some (conn u) else none)) } := by
  obtain ⟨htransports, hothers, -⟩ := hreg.channel_token hn hi
  have hbefore : incomplete arrived ids = true :=
    incomplete_eq_true.mpr ⟨t, List.mem_of_getElem? hi, hnew⟩
  refine ⟨?_, h.takeRequest, ?_, ?_, ?_, ?_, ?_, ?_⟩
  · rw [h.same]
    rfl
  · intro c
    rw [filter_cons (htransports c)]
    exact h.registrationIds c
  · rw [slot_cons (htransports _)]
    exact h.descriptor
  · rw [slot_cons (htransports _)]
    exact h.descriptorReply
  · intro m
    by_cases hm : m = n
    · subst hm
      rw [hn, Option.filter_some, if_pos hmissing]
      refine (h.channelRegistrationIds m).trans ?_
      rw [hn, Option.filter_some, if_pos hbefore]
    · rw [registration_cons (hothers m hm)]
      exact h.channelRegistrationIds m
  · intro m
    show (s.channelReceivedConnections.insert n _).lookup m = _
    by_cases hm : m = n
    · subst hm
      rw [Finmap.lookup_insert, hn, Option.filter_some, if_pos hmissing, Option.map_some]
    · rw [Finmap.lookup_insert_of_ne _ hm, (channel_cons (hothers m hm)).1]
      exact h.received m
  · intro m
    by_cases hm : m = n
    · subst hm
      refine (h.channels m).trans ?_
      rw [hn, Option.filter_some, Option.filter_some, hmissing, hbefore]
    · rw [(channel_cons (hothers m hm)).2]
      exact h.channels m

/-- The last connection of a channel arrives: the channel is there, and nothing of it
    is pending. -/
theorem Arrived.lastOfChannel (h : Arrived q conn arrived s)
    (hreg : Registering context q answer) {n : String} {ids : List Nat} {i : Nat}
    (hn : q.channelRegistrationIds.lookup n = some ids) (hi : ids[i]? = some t)
    (hlast : incomplete (t :: arrived) ids = false)
    (received : List (Option Connection)) :
    Arrived q conn (t :: arrived) { s.takeRequest t with
      channelRegistrationIds := s.channelRegistrationIds.erase n
      channelReceivedConnections :=
        (s.channelReceivedConnections.insert n received).erase n
      channels := s.channels.insert n ⟨ids.map conn, .listen⟩ } := by
  obtain ⟨htransports, hothers, -⟩ := hreg.channel_token hn hi
  refine ⟨?_, h.takeRequest, ?_, ?_, ?_, ?_, ?_, ?_⟩
  · rw [h.same]
    rfl
  · intro c
    rw [filter_cons (htransports c)]
    exact h.registrationIds c
  · rw [slot_cons (htransports _)]
    exact h.descriptor
  · rw [slot_cons (htransports _)]
    exact h.descriptorReply
  · intro m
    show (s.channelRegistrationIds.erase n).lookup m = _
    by_cases hm : m = n
    · subst hm
      rw [Finmap.lookup_erase, hn, Option.filter_some, hlast]
      rfl
    · rw [Finmap.lookup_erase_ne hm, registration_cons (hothers m hm)]
      exact h.channelRegistrationIds m
  · intro m
    show ((s.channelReceivedConnections.insert n received).erase n).lookup m = _
    by_cases hm : m = n
    · subst hm
      rw [Finmap.lookup_erase, hn, Option.filter_some, hlast]
      rfl
    · rw [Finmap.lookup_erase_ne hm, Finmap.lookup_insert_of_ne _ hm,
        (channel_cons (hothers m hm)).1]
      exact h.received m
  · intro m
    show (s.channels.insert n _).lookup m = _
    by_cases hm : m = n
    · subst hm
      rw [Finmap.lookup_insert, hn, Option.filter_some, hlast]
      rfl
    · rw [Finmap.lookup_insert_of_ne _ hm, (channel_cons (hothers m hm)).2]
      exact h.channels m

end Arrival

/-- Whether a channel lacks a connection shows in what it has received. -/
theorem received_any (conn : Nat → Connection) (arrived ids : List Nat) :
    (ids.map (fun u => if u ∈ arrived then some (conn u) else none)).any Option.isNone
      = incomplete arrived ids := by
  rw [incomplete, List.any_map]
  have hbody : (Option.isNone ∘ fun u => if u ∈ arrived then some (conn u) else none)
      = fun u => !arrived.contains u := by
    ext u
    by_cases hu : u ∈ arrived
    · simp [hu]
    · simp [hu]
  rw [hbody]

/-- When all have arrived, every connection is there. -/
theorem received_all {conn : Nat → Connection} {arrived ids : List Nat}
    (h : ∀ u ∈ ids, u ∈ arrived) :
    (ids.map (fun u => if u ∈ arrived then some (conn u) else none)).filterMap id
      = ids.map conn := by
  have hsome : ids.map (fun u => if u ∈ arrived then some (conn u) else none)
      = ids.map (fun u => some (conn u)) :=
    List.map_congr_left (fun u hu => if_pos (h u hu))
  rw [hsome, List.filterMap_map]
  exact congrFun List.filterMap_eq_map' ids

/-- No error is set. -/
theorem setError_none (p : PipeImpl) : p.setError none = .returns p := by
  rw [setError, if_pos (by simp)]

/-- An accepted transport connection goes to its slot. -/
theorem accept_transport {p : PipeImpl} {c : ConnectionId} {t : Nat}
    (connection : Connection) (hstate : p.state = .serverWaitingForConnections)
    (hc : p.registrationIds.lookup c = some t) :
    p.onAcceptWhileServerWaitingForConnection c p.transport connection
      = (setTransportConnection c connection
          { p with registrationIds := p.registrationIds.erase c }).establishIfComplete := by
  rw [onAcceptWhileServerWaitingForConnection, dcheck_of (by rw [hstate]; rfl)]
  dsimp only
  rw [hc]
  dsimp only
  rw [dcheck_of (by simp)]

/-- An accepted connection of a channel goes to its place; the channel is created if
    it was the last one. -/
theorem accept_channel {p : PipeImpl} {context : ContextImpl} {c : ChannelContext}
    {n : String} {ids : List Nat} {i : Nat} {received : List (Option Connection)}
    (connection : Connection) (hstate : p.state = .serverWaitingForConnections)
    (hids : p.channelRegistrationIds.lookup n = some ids)
    (hreceived : p.channelReceivedConnections.lookup n = some received)
    (hlen : received.length = ids.length) (hi : i < ids.length)
    (hget : context.getChannel n = some c) (hchannels : p.channels.lookup n = none) :
    p.onAcceptWhileServerWaitingForChannel context n i p.transport connection
      = if (received.set i (some connection)).any Option.isNone then
          .returns { p with channelReceivedConnections :=
            p.channelReceivedConnections.insert n (received.set i (some connection)) }
        else establishIfComplete { p with
          channelRegistrationIds := p.channelRegistrationIds.erase n
          channelReceivedConnections := (p.channelReceivedConnections.insert n
            (received.set i (some connection))).erase n
          channels := p.channels.insert n
            ⟨(received.set i (some connection)).filterMap id, .listen⟩ } := by
  have hno : ¬ (ids.length ≤ i ∨ received.length ≤ i) := by
    rw [hlen, or_self]
    exact Nat.not_le.mpr hi
  have hwaiting : (p.state == .serverWaitingForConnections) = true := by
    rw [hstate]
    rfl
  rw [onAcceptWhileServerWaitingForChannel, dcheck_of hwaiting]
  dsimp only
  rw [dcheck_of (by simp), hids, hreceived]
  dsimp only
  rw [if_neg hno]
  by_cases hany : (received.set i (some connection)).any Option.isNone = true
  · rw [if_pos hany, if_pos hany]
  · rw [if_neg hany, if_neg hany, createChannel, hget]
    dsimp only
    rw [dcheck_of (by rw [hchannels]; rfl), emplaceChannel, if_neg]
    exact Finmap.lookup_eq_none.mp hchannels

/-- **One arrival.**  It adds its token to what has arrived, and the server leaves the
    handshake if that was the last one. -/
theorem accepted_spec {context : ContextImpl} {q s : PipeImpl} {answer : BrochureAnswer}
    {conn : Nat → Connection} {arrived : List Nat} {t : Nat}
    (h : Arrived q conn arrived s) (hreg : Registering context q answer)
    (hstate : q.state = .serverWaitingForConnections) (herror : q.error = none)
    (hreq : q.requests.lookup t ≠ none) (hnew : t ∉ arrived) :
    ∃ s', Arrived q conn (t :: arrived) s'
      ∧ s.run (.accepted t none context q.transport (conn t)) = s'.establishIfComplete := by
  have hs : s.state = .serverWaitingForConnections ∧ s.error = none
      ∧ s.transport = q.transport := by
    rw [h.same]
    exact ⟨hstate, herror, rfl⟩
  obtain ⟨r, hr⟩ := Option.ne_none_iff_exists'.mp hreq
  have hlook : s.requests.lookup t = some r := by
    rw [h.requests, if_neg hnew, hr]
  have hrun : s.run (.accepted t none context q.transport (conn t))
      = onConnectionRequest context r (s.takeRequest t).transport (conn t)
        (s.takeRequest t) := by
    simp only [run]
    rw [hlook]
    dsimp only
    rw [setError_none, Outcome.bind_returns, unlessError,
      if_pos (show (s.takeRequest t).error.isNone = true by
        show s.error.isNone = true
        rw [hs.2.1]
        rfl),
      ← hs.2.2]
    rfl
  rw [hrun]
  cases r with
  | transport c =>
      have hq := (hreg.transports t c).mp hr
      refine ⟨_, h.transport hreg hq, ?_⟩
      refine accept_transport (conn t) hs.1 (t := t) ?_
      refine (h.registrationIds c).trans ?_
      rw [hq]
      simp [Option.filter_some, hnew]
  | channel n i =>
      obtain ⟨ids, hn, hi⟩ := (hreg.slots t n i).mp hr
      obtain ⟨c, hget, -⟩ := hreg.known n ids hn
      have hbefore : incomplete arrived ids = true :=
        incomplete_eq_true.mpr ⟨t, List.mem_of_getElem? hi, hnew⟩
      have hst : (s.takeRequest t).state = .serverWaitingForConnections := hs.1
      have hids : (s.takeRequest t).channelRegistrationIds.lookup n = some ids := by
        refine (h.channelRegistrationIds n).trans ?_
        rw [hn, Option.filter_some, if_pos hbefore]
      have hreceived : (s.takeRequest t).channelReceivedConnections.lookup n
          = some (ids.map (fun u => if u ∈ arrived then some (conn u) else none)) := by
        refine (h.received n).trans ?_
        rw [hn, Option.filter_some, if_pos hbefore, Option.map_some]
      have hchannels : (s.takeRequest t).channels.lookup n = none := by
        refine (h.channels n).trans ?_
        rw [hn, Option.filter_some, hbefore]
        rfl
      have haccept := accept_channel (conn t) hst hids hreceived (List.length_map _)
        (List.getElem?_eq_some_iff.mp hi).1 hget hchannels
      rw [received_set hi (hreg.channel_token hn hi).2.2, received_any] at haccept
      by_cases hmissing : incomplete (t :: arrived) ids = true
      · have hnext := h.channel hreg hn hi hnew hmissing
        refine ⟨_, hnext, ?_⟩
        refine haccept.trans ?_
        rw [if_pos hmissing, establishIfComplete, if_neg]
        · rfl
        · intro hdone
          obtain ⟨u, hu, hno⟩ := incomplete_eq_true.mp hmissing
          obtain ⟨j, hj⟩ := List.mem_iff_getElem?.mp hu
          refine hno ((hnext.pending hreg).mp hdone u ?_)
          rw [(hreg.slots u n j).mpr ⟨ids, hn, hj⟩]
          simp
      · have hlast : incomplete (t :: arrived) ids = false := by simpa using hmissing
        refine ⟨_, h.lastOfChannel hreg hn hi hlast
          (ids.map (fun u => if u ∈ t :: arrived then some (conn u) else none)), ?_⟩
        refine haccept.trans ?_
        rw [if_neg hmissing, received_all (incomplete_eq_false.mp hlast)]
        rfl

-- ── Every order ──────────────────────────────────────────────────────────────

/-- The connections of these tokens arrive one after the other, without error, and
    through the pipe's transport. -/
def arrive (context : ContextImpl) (transport : String) (conn : Nat → Connection) :
    List Nat → PipeImpl → Outcome PipeImpl
  | [], p => .returns p
  | t :: rest, p =>
      (p.run (.accepted t none context transport (conn t))).bind
        (arrive context transport conn rest)

/-- With nothing left to arrive the pipe is established. -/
theorem establishIfComplete_of {p : PipeImpl} (h : p.pendingRegistrations = false) :
    p.establishIfComplete = p.establish := by
  rw [establishIfComplete, if_pos h]

section Orders

variable {context : ContextImpl} {q : PipeImpl} {answer : BrochureAnswer}
  {conn : Nat → Connection}

/-- Arrivals that leave a request unserved keep the server waiting. -/
theorem arrive_some (hreg : Registering context q answer)
    (hstate : q.state = .serverWaitingForConnections) (herror : q.error = none)
    {missing : Nat} (hmissing : q.requests.lookup missing ≠ none) :
    ∀ (l arrived : List Nat) (s : PipeImpl), Arrived q conn arrived s → l.Nodup →
      (∀ t ∈ l, q.requests.lookup t ≠ none ∧ t ∉ arrived) → missing ∉ arrived →
      missing ∉ l →
      ∃ s', arrive context q.transport conn l s = .returns s'
        ∧ Arrived q conn (l.reverse ++ arrived) s' := by
  intro l
  induction l with
  | nil => exact fun arrived s hs _ _ _ _ => ⟨s, rfl, hs⟩
  | cons t rest ih =>
      intro arrived s hs hnd hl hno hnol
      obtain ⟨hfresh, hrest⟩ := List.nodup_cons.mp hnd
      obtain ⟨hreq, hnew⟩ := hl t (by simp)
      obtain ⟨s1, hs1, hrun⟩ := accepted_spec hs hreg hstate herror hreq hnew
      have hno1 : missing ∉ t :: arrived := by
        intro hmem
        rcases List.mem_cons.mp hmem with rfl | hmem
        · exact hnol (by simp)
        · exact hno hmem
      have hwaits : s1.establishIfComplete = .returns s1 := by
        rw [establishIfComplete, if_neg]
        intro hdone
        exact hno1 ((hs1.pending hreg).mp hdone missing hmissing)
      have hl1 : ∀ u ∈ rest, q.requests.lookup u ≠ none ∧ u ∉ t :: arrived := by
        intro u hu
        obtain ⟨h1, h2⟩ := hl u (by simp [hu])
        refine ⟨h1, ?_⟩
        intro hmem
        rcases List.mem_cons.mp hmem with rfl | hmem
        · exact hfresh hu
        · exact h2 hmem
      obtain ⟨s', hs', harr⟩ := ih (t :: arrived) s1 hs1 hrest hl1 hno1
        (fun hmem => hnol (by simp [hmem]))
      refine ⟨s', ?_, ?_⟩
      · rw [arrive, hrun, hwaits, Outcome.bind_returns]
        exact hs'
      · rw [List.reverse_cons, List.append_assoc, List.singleton_append]
        exact harr

/-- Arrivals of two lists, one after the other. -/
theorem arrive_append (transport : String) (l l' : List Nat) :
    ∀ p : PipeImpl, arrive context transport conn (l ++ l') p
      = (arrive context transport conn l p).bind (arrive context transport conn l') := by
  induction l with
  | nil => exact fun p => rfl
  | cons t rest ih =>
      intro p
      rw [List.cons_append, arrive, arrive]
      cases p.run (.accepted t none context transport (conn t)) with
      | throws x => rfl
      | returns x =>
          rw [Outcome.bind_returns, Outcome.bind_returns]
          exact ih x

/-- Once every request was served the server is established, and it was not before. -/
theorem arrive_all (hreg : Registering context q answer)
    (hstate : q.state = .serverWaitingForConnections) (herror : q.error = none)
    (hstart : Arrived q conn [] q) {arrivals : List Nat} (hnd : arrivals.Nodup)
    (hmem : ∀ t, t ∈ arrivals ↔ q.requests.lookup t ≠ none) (hne : arrivals ≠ []) :
    ∃ s, arrive context q.transport conn arrivals q = s.establish
      ∧ Arrived q conn arrivals.reverse s := by
  obtain ⟨before, last, rfl⟩ := (List.eq_nil_or_concat' arrivals).resolve_left hne
  obtain ⟨hbefore, -, hdisjoint⟩ := List.nodup_append.mp hnd
  have hlast : last ∉ before := fun hl => hdisjoint last hl last (by simp) rfl
  have hreq : ∀ t ∈ before ++ [last], q.requests.lookup t ≠ none :=
    fun t ht => (hmem t).mp ht
  obtain ⟨s, hs, harr⟩ := arrive_some hreg hstate herror (hreq last (by simp)) before [] q
    hstart hbefore (fun t ht => ⟨hreq t (by simp [ht]), by simp⟩) (by simp) hlast
  rw [List.append_nil] at harr
  obtain ⟨s', hs', hrun⟩ := accepted_spec harr hreg hstate herror (hreq last (by simp))
    (by simpa using hlast)
  have hdone : s'.pendingRegistrations = false := by
    refine (hs'.pending hreg).mpr ?_
    intro t ht
    have hin := (hmem t).mpr ht
    simpa [or_comm] using hin
  refine ⟨s', ?_, ?_⟩
  · rw [arrive_append, hs, Outcome.bind_returns, arrive, hrun, establishIfComplete_of hdone]
    cases s'.establish with
    | returns x => rfl
    | throws x => rfl
  · rw [List.reverse_append, List.reverse_singleton, List.singleton_append]
    exact hs'

end Orders

-- ── From the start of a pipe ─────────────────────────────────────────────────

/-- An error leaves the handshake where it was. -/
theorem setError_frame (error : Error) (p : PipeImpl) :
    (p.setError error).state.state = p.state
      ∧ (Unregistered p → Unregistered (p.setError error).state) := by
  rw [setError]
  by_cases hskip : (p.error.isSome || error.isNone) = true
  · rw [if_pos hskip]
    exact ⟨rfl, id⟩
  · rw [if_neg hskip, handleError]
    obtain ⟨r, w, hrw⟩ := advanceAll_frame { p with
      error := error
      registrationIds := ∅
      channelRegistrationIds := ∅
      channelReceivedConnections := ∅ }
    generalize advanceAll _ = o at hrw ⊢
    cases o with
    | returns x =>
        obtain rfl := hrw
        exact ⟨rfl, fun h => ⟨h.requests, rfl, rfl, rfl, h.channels⟩⟩
    | throws x =>
        obtain rfl := hrw
        exact ⟨rfl, fun h => ⟨h.requests, rfl, rfl, rfl, h.channels⟩⟩

/-- The pipe stays where it was or is established. -/
theorem establishIfComplete_state (p : PipeImpl) :
    p.establishIfComplete.state.state = p.state
      ∨ p.establishIfComplete.state.state = .established := by
  rw [establishIfComplete]
  by_cases hpend : p.pendingRegistrations = false
  · rw [if_pos hpend]
    obtain ⟨r, w, hrw⟩ := establish_frame p
    rw [hrw]
    exact Or.inr rfl
  · rw [if_neg hpend]
    exact Or.inl rfl

/-- A granted request never leads back to the start of the handshake. -/
theorem onConnectionRequest_state (context : ContextImpl) (request : ConnectionRequest)
    (transport : String) (connection : Connection) (p : PipeImpl) :
    (onConnectionRequest context request transport connection p).state.state = p.state
      ∨ (onConnectionRequest context request transport connection p).state.state
        = .established := by
  cases request with
  | transport c =>
      simp only [onConnectionRequest, onAcceptWhileServerWaitingForConnection]
      cases (p.dcheck (p.state == .serverWaitingForConnections)).registrationIds.lookup c with
      | none => exact Or.inl rfl
      | some t =>
          dsimp only
          cases c with
          | descriptor => exact establishIfComplete_state _
          | descriptorReply => exact establishIfComplete_state _
  | channel n i =>
      simp only [onConnectionRequest, onAcceptWhileServerWaitingForChannel]
      generalize hp' : (p.dcheck (p.state == .serverWaitingForConnections)).dcheck _ = p'
      have hstate : p'.state = p.state := by
        rw [← hp']
        rfl
      rw [← hstate]
      cases p'.channelRegistrationIds.lookup n with
      | none => exact Or.inl rfl
      | some ids =>
          cases p'.channelReceivedConnections.lookup n with
          | none => exact Or.inl rfl
          | some received =>
              dsimp only
              by_cases hlen : ids.length ≤ i ∨ received.length ≤ i
              · rw [if_pos hlen]
                exact Or.inl rfl
              · rw [if_neg hlen]
                by_cases hany : (received.set i (some connection)).any Option.isNone = true
                · rw [if_pos hany]
                  exact Or.inl rfl
                · rw [if_neg hany, createChannel]
                  cases context.getChannel n with
                  | none => exact Or.inl rfl
                  | some c =>
                      dsimp only
                      rw [emplaceChannel]
                      split
                      · exact establishIfComplete_state _
                      · exact establishIfComplete_state _

/-- What the end of a handshake call does to the state. -/
theorem onHandshakeDone_state {context : ContextImpl} {brochure : Brochure}
    {answer : BrochureAnswer} {call : HandshakeCall} {p q : PipeImpl}
    (h : onHandshakeDone context brochure answer call p = .returns q) :
    q = p ∨ q.state ≠ .serverWaitingForBrochure := by
  cases call with
  | readBrochure =>
      refine Or.inr ?_
      simp only [onHandshakeDone, onReadWhileServerWaitingForBrochure] at h
      cases hprep : p.prepareBrochureAnswer context brochure with
      | throws x =>
          rw [hprep] at h
          cases h
      | returns x =>
          rw [hprep] at h
          simp only [Outcome.chain] at h
          by_cases hpend :
              (x.1.issue (.writeBrochureAnswer x.2)).pendingRegistrations = false
          · rw [if_pos hpend] at h
            obtain ⟨r, w, rfl⟩ := establish_returns h
            simp
          · rw [if_neg hpend] at h
            obtain rfl := Outcome.returns.inj h
            simp
  | readBrochureAnswer =>
      refine Or.inr ?_
      rw [(onReadWhileClientWaitingForBrochureAnswer_returns h).1]
      simp
  | writeSpontaneousConnection => exact Or.inl (Outcome.returns.inj h).symm
  | writeBrochure b => exact Or.inl (Outcome.returns.inj h).symm
  | writeBrochureAnswer a => exact Or.inl (Outcome.returns.inj h).symm
  | writeRequestedConnection c t => exact Or.inl (Outcome.returns.inj h).symm

/-- A task of one half registers nothing. -/
theorem onReads_frame {task : Gate → Reads → Outcome Reads} {p q : PipeImpl}
    (h : p.onReads task = .returns q) : ∃ r, q = { p with reads := r } := by
  rw [onReads] at h
  cases ht : task p.gate p.reads with
  | throws x =>
      rw [ht] at h
      exact absurd h (by simp)
  | returns x =>
      rw [ht] at h
      exact ⟨x, (Outcome.returns.inj h).symm⟩

/-- A task of the writing half leaves the rest alone. -/
theorem onWrites_frame {task : Gate → Writes → Outcome Writes} {p q : PipeImpl}
    (h : p.onWrites task = .returns q) : ∃ w, q = { p with writes := w } := by
  rw [onWrites] at h
  cases ht : task p.gate p.writes with
  | throws x =>
      rw [ht] at h
      exact absurd h (by simp)
  | returns x =>
      rw [ht] at h
      exact ⟨x, (Outcome.returns.inj h).symm⟩

/-- The halves of a pipe have no requests. -/
theorem Unregistered.halves {p : PipeImpl} (h : Unregistered p) (r : Reads) (w : Writes) :
    Unregistered { p with reads := r, writes := w } :=
  ⟨h.requests, h.registrationIds, h.channelRegistrationIds, h.channelReceivedConnections,
    h.channels⟩

/-- The error of a callback is handled before its code runs. -/
theorem bind_setError {error : Error} {p q : PipeImpl} {f : PipeImpl → Outcome PipeImpl}
    (h : (p.setError error).bind f = .returns q) :
    ∃ p', f p' = .returns q ∧ p'.state = p.state
      ∧ (Unregistered p → Unregistered p') := by
  obtain ⟨hstate, hreg⟩ := setError_frame error p
  generalize p.setError error = o at h hstate hreg
  cases o with
  | throws x => exact nomatch h
  | returns x => exact ⟨x, h, hstate, hreg⟩

/-- A task either leads away from the start of the handshake, or stays there and
    registers nothing. -/
theorem run_unregistered {task : Task} {p q : PipeImpl} (h : p.run task = .returns q)
    (hp : p.state = .serverWaitingForBrochure → Unregistered p)
    (hq : q.state = .serverWaitingForBrochure) : Unregistered q := by
  cases task with
  | readDescriptor =>
      simp only [run] at h
      obtain ⟨r, rfl⟩ := onReads_frame h
      exact (hp hq).halves r p.writes
  | read allocation =>
      simp only [run] at h
      obtain ⟨r, rfl⟩ := onReads_frame h
      exact (hp hq).halves r p.writes
  | write message =>
      simp only [run] at h
      obtain ⟨w, rfl⟩ := onWrites_frame h
      exact (hp hq).halves p.reads w
  | close =>
      obtain ⟨hstate, hreg⟩ := setError_frame (some "pipe closed") p
      rw [show p.setError (some "pipe closed") = .returns q from h] at hstate hreg
      exact hreg (hp (hstate.symm.trans hq))
  | readDone call error descriptor =>
      obtain ⟨p', hf, hstate, hreg⟩ := bind_setError h
      obtain ⟨r, rfl⟩ := onReads_frame hf
      exact (hreg (hp (hstate.symm.trans hq))).halves r p'.writes
  | writeDone call error reply =>
      obtain ⟨p', hf, hstate, hreg⟩ := bind_setError h
      obtain ⟨w, rfl⟩ := onWrites_frame hf
      exact (hreg (hp (hstate.symm.trans hq))).halves p'.reads w
  | handshakeDone index error context brochure answer =>
      simp only [run] at h
      cases hcall : p.handshake[index]? with
      | none =>
          rw [hcall] at h
          obtain rfl := Outcome.returns.inj h
          exact hp hq
      | some call =>
          rw [hcall] at h
          obtain ⟨p', hf, hstate, hreg⟩ := bind_setError h
          have hsame : q = p' := by
            rw [unlessError] at hf
            by_cases herr : p'.error.isNone = true
            · rw [if_pos herr] at hf
              exact (onHandshakeDone_state hf).resolve_right (fun hne => hne hq)
            · rw [if_neg herr] at hf
              exact (Outcome.returns.inj hf).symm
          subst hsame
          have hstart := hp (hstate.symm.trans hq)
          exact hreg ⟨hstart.requests, hstart.registrationIds,
            hstart.channelRegistrationIds, hstart.channelReceivedConnections,
            hstart.channels⟩
  | accepted registrationId error context transport connection =>
      simp only [run] at h
      cases hreq : p.listener.connectionRequestRegistrations.lookup registrationId with
      | none =>
          rw [hreq] at h
          obtain rfl := Outcome.returns.inj h
          exact hp hq
      | some request =>
          -- a server at the start has no request that could be granted
          exfalso
          rw [hreq] at h
          obtain ⟨p', hf, hstate, -⟩ := bind_setError h
          have hstart : p.state = .serverWaitingForBrochure := by
            rw [unlessError] at hf
            by_cases herr : p'.error.isNone = true
            · rw [if_pos herr] at hf
              have hcases := onConnectionRequest_state context request transport
                connection p'
              rw [hf] at hcases
              rcases hcases with heq | heq
              · exact hstate.symm.trans (heq.symm.trans hq)
              · exact nomatch heq.symm.trans hq
            · rw [if_neg herr] at hf
              obtain rfl := Outcome.returns.inj hf
              exact hstate.symm.trans hq
          have hnone : p.requests.lookup registrationId = none := by
            rw [(hp hstart).requests]
            rfl
          exact nomatch hreq.symm.trans hnone

/-- Before its brochure a server has registered nothing. -/
theorem reachable_unregistered {C : Task → PipeImpl → Prop} {p : PipeImpl}
    (h : Reachable C p) : p.state = .serverWaitingForBrochure → Unregistered p := by
  induction h with
  | client transport connection context contextClosed =>
      intro hstate
      cases contextClosed with
      | true => exact nomatch hstate
      | false => exact nomatch hstate
  | server listener transport connection context contextClosed =>
      intro _
      cases contextClosed with
      | true => exact ⟨rfl, rfl, rfl, rfl, rfl⟩
      | false => exact ⟨rfl, rfl, rfl, rfl, rfl⟩
  | step task hp hallowed hC hrun ih => exact run_unregistered hrun ih

-- ── The theorem ──────────────────────────────────────────────────────────────

/-- The answer asks for a connection under this token. -/
def Requested (answer : BrochureAnswer) (t : Nat) : Prop :=
  (∃ c, answer.transportRegistrationIds.lookup c = some t)
    ∨ ∃ n ids, answer.channelRegistrationIds.lookup n = some ids ∧ t ∈ ids

/-- An order in which every requested connection arrives exactly once. -/
def Delivery (answer : BrochureAnswer) (arrivals : List Nat) : Prop :=
  arrivals.Nodup ∧ ∀ t, t ∈ arrivals ↔ Requested answer t

/-- The channels whose connections have all arrived, each with its connections by
    connection id. -/
def createdChannel (answer : BrochureAnswer) (conn : Nat → Connection)
    (arrived : List Nat) (n : String) : Option Channel :=
  match answer.channelRegistrationIds.lookup n with
  | none => none
  | some ids =>
      if ∀ t ∈ ids, t ∈ arrived then some ⟨ids.map conn, .listen⟩ else none

/-- The server `s` once the handshake that its answer asked for is over. -/
structure HandshakeDone (answer : BrochureAnswer) (conn : Nat → Connection)
    (before : Connection) (s : PipeImpl) : Prop where
  state : s.state = .established
  descriptor : s.descriptorConnection
    = ((answer.transportRegistrationIds.lookup .descriptor).map conn).getD before
  descriptorReply : s.descriptorReplyConnection
    = (answer.transportRegistrationIds.lookup .descriptorReply).map conn
  channels : ∀ n, s.channels.lookup n
    = (answer.channelRegistrationIds.lookup n).map (fun ids => ⟨ids.map conn, .listen⟩)
  registrationIds : s.registrationIds = ∅
  channelRegistrationIds : s.channelRegistrationIds = ∅
  channelReceivedConnections : s.channelReceivedConnections = ∅

section Answered

variable {context : ContextImpl} {q s : PipeImpl} {answer : BrochureAnswer}
  {conn : Nat → Connection} {arrived : List Nat}

/-- What the answer asks for is what the listener was asked for. -/
theorem Registering.requested (h : Registering context q answer) (t : Nat) :
    q.requests.lookup t ≠ none ↔ Requested answer t := by
  constructor
  · intro ht
    obtain ⟨r, hr⟩ := Option.ne_none_iff_exists'.mp ht
    cases r with
    | transport c =>
        exact Or.inl ⟨c, (h.transportTokens c).trans ((h.transports t c).mp hr)⟩
    | channel n i =>
        obtain ⟨ids, hn, hi⟩ := (h.slots t n i).mp hr
        exact Or.inr ⟨n, ids, (h.channelTokens n).trans hn, List.mem_of_getElem? hi⟩
  · rintro (⟨c, hc⟩ | ⟨n, ids, hn, ht⟩)
    · rw [h.transportTokens] at hc
      rw [(h.transports t c).mpr hc]
      simp
    · obtain ⟨i, hi⟩ := List.mem_iff_getElem?.mp ht
      rw [h.channelTokens] at hn
      rw [(h.slots t n i).mpr ⟨ids, hn, hi⟩]
      simp

/-- The channels that have arrived are created. -/
theorem Arrived.created (h : Arrived q conn arrived.reverse s)
    (hreg : Registering context q answer) (n : String) :
    s.channels.lookup n = createdChannel answer conn arrived n := by
  rw [h.channels n, createdChannel, hreg.channelTokens n]
  cases q.channelRegistrationIds.lookup n with
  | none => rfl
  | some ids =>
      dsimp only
      rw [Option.filter_some]
      by_cases hall : ∀ t ∈ ids, t ∈ arrived
      · have hdone : incomplete arrived.reverse ids = false :=
          incomplete_eq_false.mpr (fun t ht => List.mem_reverse.mpr (hall t ht))
        rw [if_pos hall, hdone]
        rfl
      · have hmissing : incomplete arrived.reverse ids = true := by
          by_contra hno
          refine hall (fun t ht => ?_)
          exact List.mem_reverse.mp (incomplete_eq_false.mp (by simpa using hno) t ht)
        rw [if_neg hall, hmissing]
        rfl

/-- Once everything has arrived, every slot is filled and nothing is pending. -/
theorem Arrived.done (h : Arrived q conn arrived s) (hreg : Registering context q answer)
    (hreply : answer.transportRegistrationIds.lookup .descriptorReply ≠ none)
    (hall : ∀ t, q.requests.lookup t ≠ none → t ∈ arrived) :
    HandshakeDone answer conn q.descriptorConnection { s with state := .established } := by
  obtain ⟨hids, hchannelIds⟩ : s.registrationIds = ∅ ∧ s.channelRegistrationIds = ∅ := by
    have hpend := (h.pending hreg).mpr hall
    rw [pendingRegistrations, Bool.or_eq_false_iff, decide_eq_false_iff_not,
      decide_eq_false_iff_not, not_not, not_not] at hpend
    exact hpend
  have htransport : ∀ c t, q.registrationIds.lookup c = some t → t ∈ arrived := by
    intro c t hc
    refine hall t ?_
    rw [(hreg.transports t c).mpr hc]
    simp
  have hfilter : ∀ n ids, q.channelRegistrationIds.lookup n = some ids →
      incomplete arrived ids = false := by
    intro n ids hn
    refine incomplete_eq_false.mpr (fun t ht => ?_)
    obtain ⟨i, hi⟩ := List.mem_iff_getElem?.mp ht
    refine hall t ?_
    rw [(hreg.slots t n i).mpr ⟨ids, hn, hi⟩]
    simp
  refine ⟨rfl, ?_, ?_, ?_, hids, hchannelIds, ?_⟩
  · have hslot := h.descriptor
    rw [hreg.transportTokens]
    refine Option.some.inj (hslot.trans ?_)
    cases hc : q.registrationIds.lookup .descriptor with
    | none => rfl
    | some t => simp [slot, htransport _ t hc]
  · have hslot := h.descriptorReply
    rw [hreg.transportTokens] at hreply ⊢
    refine hslot.trans ?_
    obtain ⟨t, hc⟩ := Option.ne_none_iff_exists'.mp hreply
    rw [hc]
    simp [slot, htransport _ t hc]
  · intro n
    refine (h.channels n).trans ?_
    rw [hreg.channelTokens]
    cases hn : q.channelRegistrationIds.lookup n with
    | none => rfl
    | some ids => rw [Option.filter_some, hfilter n ids hn]; rfl
  · refine Finmap.ext_lookup (fun n => ?_)
    refine (h.received n).trans ?_
    cases hn : q.channelRegistrationIds.lookup n with
    | none => rfl
    | some ids => rw [Option.filter_some, hfilter n ids hn]; rfl

end Answered

/-- **Order independence.**  A server that answers a brochure waits for the connections
    it asked for.  In whatever order they arrive: before the last arrival it is still
    waiting, with exactly the channels whose connections are all there; the last
    arrival establishes it, with every connection in its slot and nothing pending; no
    debug check fails; and the outcome is the same for every order. -/
theorem server_handshake_order_independent {C : Task → PipeImpl → Prop}
    {context : ContextImpl} {brochure : Brochure} {p q : PipeImpl}
    {answer : BrochureAnswer} (hp : Reachable C p)
    (hstate : p.state = .serverWaitingForBrochure) (herror : p.error = none)
    (hans : Answers context brochure p answer q)
    (hneeds : ∀ n ∈ (selectChannels context.channelsByPriority
        brochure.channelDeviceDescriptors).descriptorsMap,
      ∀ c, context.getChannel n = some c → 1 ≤ c.numConnectionsNeeded)
    (conn : Nat → Connection) {arrivals : List Nat} (harr : Delivery answer arrivals) :
    q.state = .serverWaitingForConnections
    ∧ (∀ t c, q.requests.lookup t = some (.transport c) ↔
      answer.transportRegistrationIds.lookup c = some t)
    ∧ (∀ t n i, q.requests.lookup t = some (.channel n i) ↔
      ∃ ids, answer.channelRegistrationIds.lookup n = some ids ∧ ids[i]? = some t)
    ∧ (∀ arrived missing, arrivals = arrived ++ missing → missing ≠ [] →
      ∃ s, arrive context q.transport conn arrived q = .returns s
        ∧ s.state = .serverWaitingForConnections ∧ s.dchecks = q.dchecks
        ∧ ∀ n, s.channels.lookup n = createdChannel answer conn arrived n)
    ∧ HandshakeDone answer conn p.descriptorConnection
      (arrive context q.transport conn arrivals q).state
    ∧ (arrive context q.transport conn arrivals q).state.dchecks = q.dchecks
    ∧ ∀ arrivals', Delivery answer arrivals' →
      arrive context q.transport conn arrivals' q
        = arrive context q.transport conn arrivals q := by
  have hwait := answers_waiting (reachable_unregistered hp hstate) hans
  have hreg := hwait.registering
  have hqerror : q.error = none := hwait.slots.error.trans herror
  have hqchannels : q.channels = ∅ :=
    hwait.slots.channels.trans (reachable_unregistered hp hstate).channels
  have hnonempty : ∀ n ids, q.channelRegistrationIds.lookup n = some ids → ids ≠ [] := by
    rintro n ids hn rfl
    obtain ⟨c, hget, hlen⟩ := hreg.known n [] hn
    have hsel := hwait.selected n (by rw [hreg.channelTokens, hn]; simp)
    have hpos := hneeds n hsel c hget
    rw [← hlen] at hpos
    exact absurd hpos (by simp)
  have hstart := hreg.arrived hqchannels hnonempty conn
  have hdelivered : ∀ l, Delivery answer l →
      (∀ t, t ∈ l ↔ q.requests.lookup t ≠ none) ∧ l ≠ [] := by
    rintro l ⟨-, hl⟩
    refine ⟨fun t => (hl t).trans (hreg.requested t).symm, ?_⟩
    rintro rfl
    obtain ⟨t, ht⟩ := Option.ne_none_iff_exists'.mp hwait.reply
    exact absurd ((hl t).mpr (Or.inl ⟨_, ht⟩)) (by simp)
  obtain ⟨hmem, hne⟩ := hdelivered arrivals harr
  obtain ⟨s, hs, hsarr⟩ := arrive_all hreg hwait.state hqerror hstart harr.1 hmem hne
  obtain ⟨r, w, hfinal⟩ := establish_frame s
  refine ⟨hwait.state, ?_, ?_, ?_, ?_, ?_, ?_⟩
  · intro t c
    rw [hreg.transports, hreg.transportTokens]
  · intro t n i
    rw [hreg.slots, hreg.channelTokens]
  · rintro arrived missing rfl hmissing
    obtain ⟨t, rest, rfl⟩ := List.exists_cons_of_ne_nil hmissing
    obtain ⟨hnd, -, hdisjoint⟩ := List.nodup_append.mp harr.1
    have hno : t ∉ arrived := fun hin => hdisjoint t hin t (by simp) rfl
    obtain ⟨s', hs', harr'⟩ := arrive_some hreg hwait.state hqerror
      ((hmem t).mp (by simp)) arrived [] q hstart hnd
      (fun u hu => ⟨(hmem u).mp (by simp [hu]), by simp⟩) (by simp) hno
    rw [List.append_nil] at harr'
    refine ⟨s', hs', ?_, ?_, harr'.created hreg⟩
    · rw [harr'.same]
      exact hwait.state
    · rw [harr'.same]
  · rw [hs, hfinal, ← hwait.slots.descriptorConnection]
    have hdone := hsarr.done hreg hwait.reply
      (fun t ht => List.mem_reverse.mpr ((hmem t).mpr ht))
    exact ⟨rfl, hdone.descriptor, hdone.descriptorReply, hdone.channels,
      hdone.registrationIds, hdone.channelRegistrationIds,
      hdone.channelReceivedConnections⟩
  · rw [hs, hfinal]
    show s.dchecks = q.dchecks
    rw [hsarr.same]
  · intro arrivals' harr'
    obtain ⟨hmem', hne'⟩ := hdelivered arrivals' harr'
    obtain ⟨s', hs', hsarr'⟩ :=
      arrive_all hreg hwait.state hqerror hstart harr'.1 hmem' hne'
    have hsame : s' = s := by
      refine hsarr'.unique hsarr (fun t => ?_)
      rw [List.mem_reverse, List.mem_reverse, hmem', hmem]
    rw [hs', hs, hsame]

/-- A server that was reached over another transport than the one it picks. -/
def sampleWaiting : PipeImpl :=
  (onReadWhileServerWaitingForBrochure (sampleHost "a") (makeBrochure (sampleHost "b"))
    ((server { addresses := (∅ : UnorderedMap String String).insert "uv" "addr" } "shm" 9
      ).initFromLoop (sampleHost "a") false)).state

/-- Its answer asks for three connections. -/
def sampleWaitingAnswer : BrochureAnswer where
  transport := "uv"
  address := "addr"
  transportRegistrationIds :=
    ((∅ : UnorderedMap ConnectionId Nat).insert .descriptor 0).insert .descriptorReply 1
  channelRegistrationIds := (∅ : UnorderedMap String (List Nat)).insert "basic" [2]
  channelDeviceDescriptors := (∅ : UnorderedMap String (UnorderedMap Device String)).insert
    "basic" ((∅ : UnorderedMap Device String).insert ⟨"cpu", 0⟩ "any")
  channelForDevicePair := (∅ : UnorderedMap (Device × Device) String).insert
    (⟨"cpu", 0⟩, ⟨"cpu", 0⟩) "basic"

/-- The three connections, the channel's first and the descriptor's last. -/
theorem server_handshake_order_independent_three :
    HandshakeDone sampleWaitingAnswer (fun t => 10 * t) 9
      (arrive (sampleHost "a") "uv" (fun t => 10 * t) [2, 1, 0] sampleWaiting).state
    ∧ (arrive (sampleHost "a") "uv" (fun t => 10 * t) [2, 1, 0] sampleWaiting
        ).state.descriptorConnection = 0
    ∧ arrive (sampleHost "a") "uv" (fun t => 10 * t) [0, 1, 2] sampleWaiting
      = arrive (sampleHost "a") "uv" (fun t => 10 * t) [2, 1, 0] sampleWaiting := by
  have hreach : Reachable (fun _ _ => True)
      ((server { addresses := (∅ : UnorderedMap String String).insert "uv" "addr" } "shm" 9
        ).initFromLoop (sampleHost "a") false) := .server _ _ _ _ _
  have hans : Answers (sampleHost "a") (makeBrochure (sampleHost "b"))
      ((server { addresses := (∅ : UnorderedMap String String).insert "uv" "addr" } "shm" 9
        ).initFromLoop (sampleHost "a") false) sampleWaitingAnswer sampleWaiting :=
    ⟨rfl, rfl⟩
  have hneeds : ∀ n ∈ (selectChannels (sampleHost "a").channelsByPriority
        (makeBrochure (sampleHost "b")).channelDeviceDescriptors).descriptorsMap,
      ∀ c, (sampleHost "a").getChannel n = some c → 1 ≤ c.numConnectionsNeeded := by
    intro n hn c hc
    have hbasic : n = "basic" := by
      have hkeys : (selectChannels (sampleHost "a").channelsByPriority
        (makeBrochure (sampleHost "b")).channelDeviceDescriptors).descriptorsMap.keys
          = ["basic"] := rfl
      rw [AList.mem_keys, hkeys] at hn
      exact List.mem_singleton.mp hn
    subst hbasic
    obtain rfl := Option.some.inj ((show (sampleHost "a").getChannel "basic" = some _
      from rfl).symm.trans hc)
    exact Nat.le_refl 1
  have hrequested : ∀ t, t ∈ [0, 1, 2] ↔ Requested sampleWaitingAnswer t := by
    intro t
    constructor
    · intro ht
      simp only [List.mem_cons, List.not_mem_nil, or_false] at ht
      rcases ht with rfl | rfl | rfl
      · exact Or.inl ⟨.descriptor, rfl⟩
      · exact Or.inl ⟨.descriptorReply, rfl⟩
      · exact Or.inr ⟨"basic", [2], rfl, by simp⟩
    · rintro (⟨c, hc⟩ | ⟨n, ids, hn, ht⟩)
      · cases c with
        | descriptor =>
            obtain rfl := Option.some.inj ((show _ = some 0 from rfl).symm.trans hc)
            simp
        | descriptorReply =>
            obtain rfl := Option.some.inj ((show _ = some 1 from rfl).symm.trans hc)
            simp
      · by_cases hbasic : n = "basic"
        · subst hbasic
          obtain rfl := Option.some.inj ((show _ = some [2] from rfl).symm.trans hn)
          simp only [List.mem_singleton] at ht
          simp [ht]
        · rw [sampleWaitingAnswer, AList.lookup_insert_ne hbasic] at hn
          exact nomatch hn
  have hdelivery : ∀ l, l.Perm [0, 1, 2] → Delivery sampleWaitingAnswer l :=
    fun l hl => ⟨hl.nodup_iff.mpr (by decide), fun t => hl.mem_iff.trans (hrequested t)⟩
  obtain ⟨-, -, -, -, hdone, -, hsame⟩ := server_handshake_order_independent hreach rfl rfl
    hans hneeds (fun t => 10 * t) (hdelivery [2, 1, 0] (by decide))
  exact ⟨hdone, rfl, hsame [0, 1, 2] (hdelivery _ (by decide))⟩

end PipeImpl

end TpPipe
