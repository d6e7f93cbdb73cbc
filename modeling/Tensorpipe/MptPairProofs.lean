import Tensorpipe.MptLaneProofs

/-! # Two connected mpt channels

    Two channels are put together with the lanes between them, each lane a FIFO in either
    direction, and run without errors, from the handshake on.  The server registers with its
    context for each of its lanes; the client opens a connection for each lane, and says on it
    under which id the server has registered for that lane.  So whatever the order in which the
    server's context gets these connections, a lane of the server gets the connection of the
    same lane of the client.

    From then on the two ends of a connection issue the chunks of the same tensors, in the same
    order, which is all the matching of frames and reads there is. -/

namespace TpMpt

open TpStateMachine

-- ── The pair ─────────────────────────────────────────────────────────────────

namespace ChannelImpl

/-- Whether the handshake of this end is over. -/
def isEstablished (x : ChannelImpl) : Bool := decide (x.state = .established)

/-- The writes that an end issued on a connection, in order. -/
def writesOn (x : ChannelImpl) (connection : Nat) : List LaneCall :=
  callsOn x.lanes x.send.io connection

/-- The reads that an end issued on a connection, in order. -/
def readsOn (x : ChannelImpl) (connection : Nat) : List LaneCall :=
  callsOn x.lanes x.recv.io connection

end ChannelImpl

/-- One direction: the buffers that were given to it, how many writes and reads have reported on
    each connection, and what has arrived in the buffer of each receive, position by
    position. -/
structure Link (β : Type) where
  source : Nat → Nat := fun _ => 0
  target : Nat → Nat := fun _ => 0
  written : Nat → Nat := fun _ => 0
  read : Nat → Nat := fun _ => 0
  arrived : Nat → Nat → Option β := fun _ _ => none

namespace Link

variable {β : Type}

/-- Notes where a tensor that is sent lies. -/
def onSend (n ptr : Nat) (l : Link β) : Link β :=
  { l with source := Function.update l.source n ptr }

/-- Notes where a tensor is received. -/
def onRecv (n ptr : Nat) (l : Link β) : Link β :=
  { l with target := Function.update l.target n ptr }

/-- Notes that one more write of a connection has completed. -/
def onWritten (connection : Nat) (l : Link β) : Link β :=
  { l with written := Function.update l.written connection (l.written connection + 1) }

/-- The bytes of the frame `w` land where the read `r` wants them. -/
def onRead (contents : Nat → Nat → β) (connection : Nat) (w r : LaneCall) (l : Link β) : Link β :=
  { l with
    read := Function.update l.read connection (l.read connection + 1)
    arrived := fun n o =>
      if r.sequenceNumber = n ∧ r.ptr = l.target n ∧ r.offset ≤ o ∧ o < r.offset + w.length then
        some (contents w.sequenceNumber (w.offset + (o - r.offset)))
      else l.arrived n o }

end Link

namespace HelloCall

/-- The advertisements of a call, if that is the hello of the server. -/
def serverHello? : HelloCall → Option (List LaneAdvertisement)
  | .writeServerHello laneAdvertisements => some laneAdvertisements
  | _ => none

/-- What the client says on a connection to a lane. -/
def clientHelloOn (connection : Nat) : HelloCall → Option Nat
  | .writeClientHello _ connection' registrationId =>
      if connection' = connection then some registrationId else none
  | _ => none

end HelloCall

/-- Channel `false` is the client's and channel `true` the server's; the link `d` goes from
    channel `d` to channel `!d`.  The registrations are those with the server's context, each
    an id and the lane that its callback captured. -/
structure Pair (β : Type) where
  channel : Bool → ChannelImpl
  connectionRequestRegistrations : List (Nat × Nat)
  link : Bool → Link β := fun _ => {}

/-- A step of the pair. -/
inductive Event where
  | send (who : Bool) (ptr : Nat)
  | recv (who : Bool) (ptr : Nat)
  | serverHello (connections : List Nat)
  | clientHello (connection : Nat)
  | helloWritten (who : Bool) (call : HelloCall)
  | written (who : Bool) (connection : Nat)
  | read (who : Bool) (connection : Nat)
deriving DecidableEq, Repr

namespace Pair

variable {β : Type}

/-- Runs a task at one end. -/
def act (p : Pair β) (who : Bool) (task : Task) : Pair β :=
  { p with channel := Function.update p.channel who ((p.channel who).step task) }

/-- The pair with another link in one direction. -/
def withLink (p : Pair β) (d : Bool) (l : Link β) : Pair β :=
  { p with link := Function.update p.link d l }

/-- The connection request may have already been deregistered; the connection is dropped
    then. -/
def onReadClientHelloOnLane (connection registrationId : Nat) (p : Pair β) : Pair β :=
  match p.connectionRequestRegistrations.find? (fun r => r.1 == registrationId) with
  | none => p
  | some r =>
      { p.act true (.acceptOfLane false r.2 registrationId connection) with
        connectionRequestRegistrations :=
          p.connectionRequestRegistrations.filter (fun r => r.1 ≠ registrationId) }

/-- The k-th send of a channel and the k-th receive of the other one have the same length.  The
    client opens new connections, one for each lane.  The k-th frame on a connection is for the
    k-th read. -/
def step (lengths : Bool → Nat → Nat) (contents : Bool → Nat → Nat → β) (p : Pair β) :
    Event → Option (Pair β)
  | .send who ptr =>
      let n := (p.channel who).send.next
      some ((p.act who (.send ptr (lengths who n))).withLink who ((p.link who).onSend n ptr))
  | .recv who ptr =>
      let n := (p.channel who).recv.next
      some ((p.act who (.recv ptr (lengths (!who) n))).withLink (!who)
        ((p.link !who).onRecv n ptr))
  | .serverHello connections =>
      match (p.channel true).hello.issued.findSome? HelloCall.serverHello? with
      | none => none
      | some laneAdvertisements =>
          if .readServerHello ∈ (p.channel false).hello.calls
              ∧ connections.length = (p.channel false).numLanes ∧ connections.Nodup then
            some (p.act false (.serverHello false laneAdvertisements connections))
          else none
  | .clientHello connection =>
      match (p.channel false).hello.issued.findSome? (HelloCall.clientHelloOn connection) with
      | none => none
      | some registrationId => some (p.onReadClientHelloOnLane connection registrationId)
  | .helloWritten who call =>
      match call with
      | .readServerHello | .connectionRequest _ _ => none
      | .writeServerHello _ | .writeClientHello _ _ _ =>
          if call ∈ (p.channel who).hello.calls then some (p.act who (.helloWritten call false))
          else none
  | .written who connection =>
      match ((p.channel who).writesOn connection)[(p.link who).written connection]? with
      | none => none
      | some w =>
          some ((p.act who (.sendReport w false)).withLink who
            ((p.link who).onWritten connection))
  | .read who connection =>
      match ((p.channel !who).writesOn connection)[(p.link !who).read connection]?,
        ((p.channel who).readsOn connection)[(p.link !who).read connection]? with
      | some w, some r =>
          some ((p.act who (.recvReport r false)).withLink (!who)
            ((p.link !who).onRead (contents !who) connection w r))
      | _, _ => none

/-- Two new ends: one listens, the other connects. -/
def init (numLanes : Nat) (addresses : List String) (firstRegistrationId : Nat) : Pair β :=
  let server := ChannelImpl.init false .kListen numLanes addresses firstRegistrationId
  { channel := fun who =>
      if who then server else .init false .kConnect numLanes addresses firstRegistrationId
    connectionRequestRegistrations := server.laneRegistrationIds.map (fun r => (r.2, r.1)) }

/-- The pairs that can be reached from two new ends. -/
inductive Reachable (numLanes : Nat) (lengths : Bool → Nat → Nat)
    (contents : Bool → Nat → Nat → β) : Pair β → Prop where
  | init (addresses : List String) (firstRegistrationId : Nat) :
      Reachable numLanes lengths contents (init numLanes addresses firstRegistrationId)
  | step {p p' : Pair β} (h : Reachable numLanes lengths contents p) (event : Event)
      (hstep : p.step lengths contents event = some p') : Reachable numLanes lengths contents p'

end Pair

-- ── What the tasks do ────────────────────────────────────────────────────────

namespace ChannelImpl

/-- A channel with this many lanes, without an error. -/
structure Healthy (numLanes : Nat) (x : ChannelImpl) : Prop where
  numLanes : x.numLanes = numLanes
  noError : ¬ x.error = true

variable {x : ChannelImpl} {numLanes : Nat}

/-- Whether an end is healthy depends on its lanes and its error. -/
theorem Healthy.frame (h : Healthy numLanes x) {y : ChannelImpl} (hlanes : y.numLanes = x.numLanes)
    (herror : y.error = x.error) : Healthy numLanes y :=
  ⟨hlanes.trans h.numLanes, herror ▸ h.noError⟩

/-- On a healthy end both sequences advance by the lanes. -/
theorem laneSteps_of_gate (h : Healthy numLanes x) :
    advanceSendOperation x.gate = laneSteps numLanes x.isEstablished
      ∧ advanceRecvOperation x.gate = laneSteps numLanes x.isEstablished := by
  have hgate : x.gate = { error := false, established := x.isEstablished, numLanes } := by
    rw [gate, eq_false_of_ne_true h.noError, h.numLanes]
    rfl
  rw [hgate]
  exact ⟨rfl, rfl⟩

/-- No error is set. -/
theorem setError_none : setError false x = x := by
  rw [setError, Bool.not_false, Bool.or_true, if_pos rfl]

/-- A call of `send` at a healthy end. -/
theorem step_send (h : Healthy numLanes x) (ptr length : Nat) :
    x.step (.send ptr length) = { x with
      send := x.send.submit (laneSteps numLanes x.isEstablished)
        { sequenceNumber := x.send.next, ptr, length } } := by
  rw [step, sendFromLoop, if_neg h.noError,
    (laneSteps_of_gate h).1]

/-- A call of `recv` at a healthy end. -/
theorem step_recv (h : Healthy numLanes x) (ptr length : Nat) :
    x.step (.recv ptr length) = { x with
      recv := x.recv.submit (laneSteps numLanes x.isEstablished)
        { sequenceNumber := x.recv.next, ptr, length } } := by
  rw [step, recvFromLoop, if_neg h.noError,
    (laneSteps_of_gate h).2]

/-- A write of a healthy end has completed. -/
theorem step_sendReport (h : Healthy numLanes x) (call : LaneCall) :
    x.step (.sendReport call false) = { x with
      send := x.send.report (laneSteps numLanes x.isEstablished) call call.sequenceNumber
        chunkDone } := by
  rw [step, setError_none, (laneSteps_of_gate h).1]

/-- A read of a healthy end has completed. -/
theorem step_recvReport (h : Healthy numLanes x) (call : LaneCall) :
    x.step (.recvReport call false) = { x with
      recv := x.recv.report (laneSteps numLanes x.isEstablished) call call.sequenceNumber
        chunkDone } := by
  rw [step, setError_none, (laneSteps_of_gate h).2]

/-- An established end advances both sequences by the lanes. -/
theorem advanceAll_established (h : Healthy numLanes x) (hstate : x.state = .established) :
    x.advanceAll = { x with
      send := x.send.advanceAll (laneSteps numLanes true)
      recv := x.recv.advanceAll (laneSteps numLanes true) } := by
  have hestablished : x.isEstablished = true := decide_eq_true hstate
  rw [advanceAll, (laneSteps_of_gate h).1, (laneSteps_of_gate h).2, hestablished]

/-- What the client says on its new connections. -/
def clientHellos (lanes : List ((LaneAdvertisement × Nat) × Nat)) : List HelloCall :=
  lanes.map (fun lane => .writeClientHello lane.2 lane.1.2 lane.1.1.registrationId)

/-- The connecting end opens a lane for each advertisement. -/
theorem connectLanes_eq (offers : List (LaneAdvertisement × Nat)) :
    ∀ (x : ChannelImpl) (before rest : List (Option Nat)),
      x.lanes = before ++ rest → rest.length = offers.length →
      (offers.zipIdx before.length).foldl connectLane x = { x with
        lanes := before ++ offers.map (fun offer => some offer.2)
        hello := { x.hello with
          calls := x.hello.calls ++ clientHellos (offers.zipIdx before.length)
          issued := x.hello.issued ++ clientHellos (offers.zipIdx before.length) } } := by
  induction offers with
  | nil =>
      intro x before rest hlanes hlength
      obtain rfl := List.length_eq_zero_iff.mp hlength
      rw [List.append_nil] at hlanes
      simp only [List.zipIdx_nil, List.foldl_nil, List.map_nil, clientHellos, List.append_nil,
        ← hlanes]
  | cons offer offers ih =>
      intro x before rest hlanes hlength
      obtain ⟨lane, rest, rfl⟩ := List.exists_cons_of_length_eq_add_one hlength
      have hset : (x.connectLane (offer, before.length)).lanes
          = (before ++ [some offer.2]) ++ rest := by
        show x.lanes.set before.length (some offer.2) = _
        rw [hlanes, List.set_append_right _ _ (Nat.le_refl _), Nat.sub_self, List.set_cons_zero,
          List.append_assoc]
        rfl
      have hrest := ih (x.connectLane (offer, before.length)) (before ++ [some offer.2]) rest hset
        (Nat.succ.inj hlength)
      rw [List.length_append, List.length_singleton] at hrest
      rw [List.zipIdx_cons, List.foldl_cons, hrest]
      simp only [connectLane, Io.issue, clientHellos, List.map_cons, List.append_assoc,
        List.singleton_append]

/-- The client has heard from the server: all its lanes are there. -/
theorem step_serverHello (h : Healthy numLanes x) {laneAdvertisements : List LaneAdvertisement}
    {connections : List Nat} (hlanes : x.lanes.length = connections.length)
    (hlength : laneAdvertisements.length = connections.length) :
    x.step (.serverHello false laneAdvertisements connections) = { x with
      state := .established
      lanes := connections.map some
      hello := { x.hello with
        calls := x.hello.calls.erase .readServerHello
          ++ clientHellos (laneAdvertisements.zip connections).zipIdx
        issued := x.hello.issued ++ clientHellos (laneAdvertisements.zip connections).zipIdx }
      send := x.send.advanceAll (laneSteps numLanes true)
      recv := x.recv.advanceAll (laneSteps numLanes true) } := by
  have hoffers : (laneAdvertisements.zip connections).map (fun offer => some offer.2)
      = connections.map some := by
    rw [← List.map_snd_zip (Nat.le_of_eq hlength.symm), List.map_map,
      List.map_snd_zip (Nat.le_of_eq hlength.symm)]
    rfl
  have hrest : x.lanes.length = (laneAdvertisements.zip connections).length := by
    rw [List.length_zip, hlength, Nat.min_self, hlanes]
  have hconnect := connectLanes_eq (laneAdvertisements.zip connections)
    { x with hello := x.hello.reported .readServerHello } [] x.lanes rfl hrest
  rw [List.length_nil, List.nil_append, hoffers] at hconnect
  rw [step, setError_none, if_neg h.noError,
    onClientReadHelloOnConnection, hconnect]
  exact advanceAll_established ⟨h.numLanes, h.noError⟩ rfl

/-- A lane that is accepted while others are still to come. -/
theorem step_acceptOfLane_more (h : Healthy numLanes x) (laneIdx registrationId connection : Nat)
    (hmore : x.numLanesBeingAccepted - 1 ≠ 0) :
    x.step (.acceptOfLane false laneIdx registrationId connection) = { x with
      hello := x.hello.reported (.connectionRequest laneIdx registrationId)
      lanes := x.lanes.set laneIdx (some connection)
      laneRegistrationIds := x.laneRegistrationIds.filter (fun p => p.1 ≠ laneIdx)
      numLanesBeingAccepted := x.numLanesBeingAccepted - 1 } := by
  rw [step, setError_none, if_neg h.noError, onServerAcceptOfLane,
    if_neg hmore]

/-- The last lane is accepted. -/
theorem step_acceptOfLane_last (h : Healthy numLanes x) (laneIdx registrationId connection : Nat)
    (hlast : x.numLanesBeingAccepted - 1 = 0) :
    x.step (.acceptOfLane false laneIdx registrationId connection) = { x with
      state := .established
      hello := x.hello.reported (.connectionRequest laneIdx registrationId)
      lanes := x.lanes.set laneIdx (some connection)
      laneRegistrationIds := x.laneRegistrationIds.filter (fun p => p.1 ≠ laneIdx)
      numLanesBeingAccepted := x.numLanesBeingAccepted - 1
      send := x.send.advanceAll (laneSteps numLanes true)
      recv := x.recv.advanceAll (laneSteps numLanes true) } := by
  rw [step, setError_none, if_neg h.noError, onServerAcceptOfLane,
    if_pos hlast]
  exact advanceAll_established ⟨h.numLanes, h.noError⟩ rfl

/-- The listening end accepts a lane, and is established by the last one. -/
theorem step_acceptOfLane (h : Healthy numLanes x) (laneIdx registrationId connection : Nat) :
    let y := x.step (.acceptOfLane false laneIdx registrationId connection)
    (y.numLanes = x.numLanes ∧ y.error = x.error)
      ∧ y.lanes = x.lanes.set laneIdx (some connection)
      ∧ y.numLanesBeingAccepted = x.numLanesBeingAccepted - 1
      ∧ y.state = (if x.numLanesBeingAccepted - 1 = 0 then .established else x.state)
      ∧ y.hello.issued = x.hello.issued := by
  by_cases hlast : x.numLanesBeingAccepted - 1 = 0
  · rw [step_acceptOfLane_last h laneIdx registrationId connection hlast, if_pos hlast]
    exact ⟨⟨rfl, rfl⟩, rfl, rfl, rfl, rfl⟩
  · rw [step_acceptOfLane_more h laneIdx registrationId connection hlast, if_neg hlast]
    exact ⟨⟨rfl, rfl⟩, rfl, rfl, rfl, rfl⟩

/-- What the server asks its context for. -/
theorem requestLanes_eq (addresses : List String) (first : Nat) (indices : List Nat) :
    ∀ (x : ChannelImpl) (laneAdvertisements : List LaneAdvertisement),
      indices.foldl (requestLane addresses first) (x, laneAdvertisements)
        = ({ x with
            laneRegistrationIds := x.laneRegistrationIds
              ++ indices.map (fun laneIdx => (laneIdx, first + laneIdx))
            numLanesBeingAccepted := x.numLanesBeingAccepted + indices.length
            hello := { x.hello with
              calls := x.hello.calls
                ++ indices.map (fun laneIdx => .connectionRequest laneIdx (first + laneIdx))
              issued := x.hello.issued
                ++ indices.map (fun laneIdx => .connectionRequest laneIdx (first + laneIdx)) } },
          laneAdvertisements ++ indices.map (fun laneIdx =>
            { address := addresses.getD laneIdx "", registrationId := first + laneIdx })) := by
  induction indices with
  | nil =>
      intro x laneAdvertisements
      simp only [List.foldl_nil, List.map_nil, List.append_nil, List.length_nil, Nat.add_zero]
  | cons laneIdx indices ih =>
      intro x laneAdvertisements
      rw [List.foldl_cons, requestLane, ih]
      simp only [Io.issue, List.map_cons, List.append_assoc, List.singleton_append,
        List.length_cons, Nat.add_assoc, Nat.add_comm 1]

end ChannelImpl

-- ── The handshake ────────────────────────────────────────────────────────────

/-- The hello of the server: where to connect for each lane, and under which id. -/
def advertisements (numLanes first : Nat) (addresses : List String) : List LaneAdvertisement :=
  (List.range numLanes).map
    (fun laneIdx =>
      { address := addresses.getD laneIdx "", registrationId := first + laneIdx })

/-- The client before it has heard from the server. -/
structure Reading (numLanes : Nat) (client : ChannelImpl) : Prop where
  state : client.state = .clientReadingHello
  lanes : client.lanes = List.replicate numLanes none
  hello : client.hello = { calls := [.readServerHello], issued := [.readServerHello] }

/-- The client afterwards: it has a connection for each lane, and has said on each under which
    id the server registered for that lane. -/
structure Connected (numLanes first : Nat) (connections : List Nat) (client : ChannelImpl) :
    Prop where
  state : client.state = .established
  lanes : client.lanes = connections.map some
  length : connections.length = numLanes
  nodup : connections.Nodup
  heard : .readServerHello ∉ client.hello.calls
  told : ∀ laneIdx connection registrationId,
    .writeClientHello laneIdx connection registrationId ∈ client.hello.issued →
      registrationId = first + laneIdx ∧ connections[laneIdx]? = some connection

/-- The server: it is registered for no lane that it has already, and it has those lanes of the
    client that it has accepted. -/
structure Accepting (numLanes first : Nat) (addresses : List String)
    (clientLanes : List (Option Nat)) (registrations : List (Nat × Nat)) (server : ChannelImpl) :
    Prop where
  length : server.lanes.length = numLanes
  advertised : ∀ laneAdvertisements, .writeServerHello laneAdvertisements ∈ server.hello.issued →
    laneAdvertisements = advertisements numLanes first addresses
  accepting : server.numLanesBeingAccepted = server.lanes.count none
  state : server.state =
    if server.lanes.count none = 0 then .established else .serverAcceptingLanes
  registered : ∀ registrationId laneIdx : Nat, (registrationId, laneIdx) ∈ registrations →
    registrationId = first + laneIdx ∧ server.lanes[laneIdx]? = some none
  connected : ∀ laneIdx connection : Nat, server.lanes[laneIdx]? = some (some connection) →
    clientLanes[laneIdx]? = some (some connection)

/-- How far the handshake is. -/
structure Handshake (numLanes first : Nat) (addresses : List String)
    (channel : Bool → ChannelImpl) (registrations : List (Nat × Nat)) : Prop where
  healthy : ∀ who, (channel who).Healthy numLanes
  client : Reading numLanes (channel false)
    ∨ ∃ connections, Connected numLanes first connections (channel false)
  server : Accepting numLanes first addresses (channel false).lanes registrations (channel true)

section Handshake

variable {numLanes first : Nat} {addresses : List String} {channel : Bool → ChannelImpl}
  {registrations : List (Nat × Nat)}

/-- The handshake does not depend on what is sent and received. -/
theorem Handshake.frame (h : Handshake numLanes first addresses channel registrations)
    {channel' : Bool → ChannelImpl}
    (hsame : ∀ who, channel' who =
      { channel who with send := (channel' who).send, recv := (channel' who).recv }) :
    Handshake numLanes first addresses channel' registrations := by
  have hchannel : channel' = fun who =>
      { channel who with send := (channel' who).send, recv := (channel' who).recv } :=
    funext hsame
  rw [hchannel]
  refine ⟨fun who => (h.healthy who).frame rfl rfl, ?_, ?_⟩
  · rcases h.client with hreading | ⟨connections, hconnected⟩
    · exact .inl ⟨hreading.state, hreading.lanes, hreading.hello⟩
    · exact .inr ⟨connections, hconnected.state, hconnected.lanes, hconnected.length,
        hconnected.nodup, hconnected.heard, hconnected.told⟩
  · exact ⟨h.server.length, h.server.advertised, h.server.accepting, h.server.state,
      h.server.registered, h.server.connected⟩

/-- The lanes of the connecting end are different connections. -/
theorem Handshake.distinct (h : Handshake numLanes first addresses channel registrations) :
    Distinct (channel false).lanes := by
  intro k l connection hk hl
  rcases h.client with hreading | ⟨connections, hconnected⟩
  · rw [hreading.lanes] at hk
    exact nomatch List.eq_of_mem_replicate (List.mem_of_getElem? hk)
  · rw [hconnected.lanes, List.getElem?_map] at hk hl
    obtain ⟨c, hck, hc⟩ := Option.map_eq_some_iff.mp hk
    obtain ⟨c', hcl, hc'⟩ := Option.map_eq_some_iff.mp hl
    obtain rfl := Option.some.inj hc
    obtain rfl := Option.some.inj hc'
    obtain ⟨hlt, -⟩ := List.getElem?_eq_some_iff.mp hck
    exact (List.getElem?_inj hlt hconnected.nodup).mp (hck.trans hcl.symm)

/-- The two ends of a connection are the same lane. -/
theorem Handshake.same_lane (h : Handshake numLanes first addresses channel registrations)
    {who other : Bool} {k l connection : Nat}
    (hk : (channel who).lanes[k]? = some (some connection))
    (hl : (channel other).lanes[l]? = some (some connection)) : k = l := by
  have hclient : ∀ (who : Bool) (k : Nat), (channel who).lanes[k]? = some (some connection) →
      (channel false).lanes[k]? = some (some connection) := by
    intro who k hk
    cases who with
    | false => exact hk
    | true => exact h.server.connected k connection hk
  exact h.distinct k l connection (hclient who k hk) (hclient other l hl)

/-- The lanes of either end are different connections. -/
theorem Handshake.distinct_lanes (h : Handshake numLanes first addresses channel registrations)
    (who : Bool) : Distinct (channel who).lanes :=
  fun _ _ _ hk hl => h.same_lane hk hl

/-- The listening end, when it is made. -/
theorem init_server (numLanes : Nat) (addresses : List String) (first : Nat) :
    ChannelImpl.init false .kListen numLanes addresses first = {
      endpoint := .kListen, numLanes, state := .serverAcceptingLanes
      numLanesBeingAccepted := numLanes
      laneRegistrationIds := (List.range numLanes).map (fun laneIdx => (laneIdx, first + laneIdx))
      hello := ({
        calls := (List.range numLanes).map
          (fun laneIdx => .connectionRequest laneIdx (first + laneIdx))
        issued := (List.range numLanes).map
          (fun laneIdx => .connectionRequest laneIdx (first + laneIdx)) } : Io HelloCall).issue
        (.writeServerHello (advertisements numLanes first addresses)) } := by
  rw [ChannelImpl.init, if_neg Bool.noConfusion, ChannelImpl.initImplFromLoop]
  simp only [ChannelImpl.requestLanes_eq, List.nil_append, List.length_range, Nat.zero_add]
  rfl

/-- The handshake has not begun. -/
theorem handshake_init (hlanes : 0 < numLanes) (addresses : List String) (first : Nat)
    (β : Type) : Handshake numLanes first addresses
      (@Pair.init β numLanes addresses first).channel
      (@Pair.init β numLanes addresses first).connectionRequestRegistrations := by
  have hserver : (@Pair.init β numLanes addresses first).channel true = _ :=
    init_server numLanes addresses first
  have hregistrations :
      (@Pair.init β numLanes addresses first).connectionRequestRegistrations
        = (List.range numLanes).map (fun laneIdx => (first + laneIdx, laneIdx)) := by
    rw [Pair.init, init_server, List.map_map]
    rfl
  have hcount : (List.replicate numLanes (none : Option Nat)).count none = numLanes :=
    List.count_replicate_self
  refine ⟨?_, .inl ⟨rfl, rfl, rfl⟩, ?_⟩
  · intro who
    cases who with
    | false => exact ⟨rfl, Bool.noConfusion⟩
    | true =>
        rw [hserver]
        exact ⟨rfl, Bool.noConfusion⟩
  · rw [hserver, hregistrations]
    refine ⟨List.length_replicate, ?_, hcount.symm, ?_, ?_, ?_⟩
    · intro laneAdvertisements hissued
      rcases List.mem_append.mp hissued with hrequest | hhello
      · obtain ⟨laneIdx, -, hcall⟩ := List.mem_map.mp hrequest
        exact nomatch hcall
      · exact HelloCall.writeServerHello.inj (List.mem_singleton.mp hhello)
    · show State.serverAcceptingLanes = _
      rw [hcount, if_neg (Nat.ne_of_gt hlanes)]
    · intro registrationId laneIdx hmem
      obtain ⟨l, hl, heq⟩ := List.mem_map.mp hmem
      obtain ⟨rfl, rfl⟩ := Prod.mk.inj heq
      refine ⟨rfl, ?_⟩
      rw [List.getElem?_replicate, if_pos (List.mem_range.mp hl)]
    · intro laneIdx connection hlane
      exact nomatch List.eq_of_mem_replicate (List.mem_of_getElem? hlane)

/-- On the connection for a lane the client says the id that it was given for that lane. -/
theorem told_clientHellos {connections : List Nat} {laneIdx connection registrationId : Nat}
    (h : .writeClientHello laneIdx connection registrationId ∈ ChannelImpl.clientHellos
      ((advertisements numLanes first addresses).zip connections).zipIdx) :
    registrationId = first + laneIdx ∧ connections[laneIdx]? = some connection := by
  obtain ⟨lane, hlane, hcall⟩ := List.mem_map.mp h
  obtain ⟨rfl, rfl, rfl⟩ := HelloCall.writeClientHello.inj hcall
  obtain ⟨hadvertisement, hconnection⟩ :=
    List.getElem?_zip_eq_some.mp (List.mem_zipIdx_iff_getElem?.mp hlane)
  refine ⟨?_, hconnection⟩
  rw [advertisements, List.getElem?_map] at hadvertisement
  obtain ⟨l, hl, heq⟩ := Option.map_eq_some_iff.mp hadvertisement
  rw [← heq, (List.getElem?_eq_some_iff.mp hl).2.symm, List.getElem_range]

/-- The hello of the server arrives. -/
theorem Handshake.serverHello (h : Handshake numLanes first addresses channel registrations)
    {connections : List Nat} (hwaits : .readServerHello ∈ (channel false).hello.calls)
    (hlength : connections.length = numLanes) (hnodup : connections.Nodup) :
    Handshake numLanes first addresses (Function.update channel false ((channel false).step
      (.serverHello false (advertisements numLanes first addresses) connections)))
      registrations := by
  rcases h.client with hreading | ⟨connections', hconnected⟩
  · have hadvertised : (advertisements numLanes first addresses).length = connections.length := by
      rw [advertisements, List.length_map, List.length_range, hlength]
    have hlanes : (channel false).lanes.length = connections.length := by
      rw [hreading.lanes, List.length_replicate, hlength]
    have hstep := ChannelImpl.step_serverHello (h.healthy false) hlanes hadvertised
    rw [hreading.hello] at hstep
    generalize (channel false).step
      (.serverHello false (advertisements numLanes first addresses) connections) = client at hstep ⊢
    have hconnected : Connected numLanes first connections client := by
      rw [hstep]
      refine ⟨rfl, rfl, hlength, hnodup, ?_, ?_⟩
      · intro hmem
        obtain ⟨lane, -, hcall⟩ := List.mem_map.mp hmem
        exact nomatch hcall
      · intro laneIdx connection registrationId hmem
        rcases List.mem_cons.mp hmem with hcall | hmem
        · exact nomatch hcall
        · exact told_clientHellos hmem
    refine ⟨?_, .inr ⟨connections, ?_⟩, ?_⟩
    · intro who
      cases who with
      | false =>
          rw [Function.update_self, hstep]
          exact (h.healthy false).frame rfl rfl
      | true => exact h.healthy true
    · rw [Function.update_self]
      exact hconnected
    · rw [Function.update_self]
      show Accepting numLanes first addresses client.lanes registrations (channel true)
      refine ⟨h.server.length, h.server.advertised, h.server.accepting, h.server.state,
        h.server.registered, ?_⟩
      intro laneIdx connection hlane
      have hbefore := h.server.connected laneIdx connection hlane
      rw [hreading.lanes] at hbefore
      exact nomatch List.eq_of_mem_replicate (List.mem_of_getElem? hbefore)
  · exact absurd hwaits hconnected.heard

/-- A lane that opens is one that was closed. -/
theorem count_set_none {lanes : List (Option Nat)} {laneIdx : Nat}
    (h : lanes[laneIdx]? = some none) (connection : Nat) :
    (lanes.set laneIdx (some connection)).count none = lanes.count none - 1 := by
  obtain ⟨hlt, hnone⟩ := List.getElem?_eq_some_iff.mp h
  rw [List.count_set hlt, hnone]
  rfl

/-- The context hands the connection over on which the client said this id. -/
theorem Handshake.accept (h : Handshake numLanes first addresses channel registrations)
    {laneIdx registrationId connection laneIdx' : Nat}
    (htold : .writeClientHello laneIdx connection registrationId ∈ (channel false).hello.issued)
    (hregistered : (registrationId, laneIdx') ∈ registrations) :
    Handshake numLanes first addresses (Function.update channel true ((channel true).step
      (.acceptOfLane false laneIdx' registrationId connection)))
      (registrations.filter (fun r => r.1 ≠ registrationId)) := by
  obtain ⟨hid, hwaiting⟩ := h.server.registered registrationId laneIdx' hregistered
  obtain ⟨hsame, hlanes, hcount, hstate, hissued⟩ := ChannelImpl.step_acceptOfLane
    (h.healthy true) laneIdx' registrationId connection
  generalize (channel true).step (.acceptOfLane false laneIdx' registrationId connection) = server
    at hsame hlanes hcount hstate hissued ⊢
  have hlane : laneIdx' = laneIdx ∧ (channel false).lanes[laneIdx]? = some (some connection) := by
    rcases h.client with hreading | ⟨connections, hconnected⟩
    · rw [hreading.hello] at htold
      exact nomatch List.mem_singleton.mp htold
    · obtain ⟨hid', hconnection⟩ := hconnected.told laneIdx connection registrationId htold
      refine ⟨Nat.add_left_cancel (hid.symm.trans hid'), ?_⟩
      rw [hconnected.lanes, List.getElem?_map, hconnection]
      rfl
  obtain ⟨rfl, hclient⟩ := hlane
  have hnone : server.lanes.count none = (channel true).lanes.count none - 1 := by
    rw [hlanes, count_set_none hwaiting]
  have hpos : (channel true).lanes.count none ≠ 0 :=
    Nat.ne_of_gt (List.count_pos_iff.mpr (List.mem_of_getElem? hwaiting))
  refine ⟨?_, h.client, ?_⟩
  · intro who
    cases who with
    | false => exact h.healthy false
    | true =>
        rw [Function.update_self]
        exact (h.healthy true).frame hsame.1 hsame.2
  · rw [Function.update_self]
    show Accepting numLanes first addresses (channel false).lanes _ server
    refine ⟨?_, ?_, ?_, ?_, ?_, ?_⟩
    · rw [hlanes, List.length_set]
      exact h.server.length
    · rw [hissued]
      exact h.server.advertised
    · rw [hcount, hnone, h.server.accepting]
    · rw [hstate, hnone, h.server.accepting, h.server.state, if_neg hpos]
    · intro id l hmem
      obtain ⟨hold, hother⟩ := List.mem_filter.mp hmem
      obtain ⟨hidl, hl⟩ := h.server.registered id l hold
      refine ⟨hidl, ?_⟩
      rw [hlanes, List.getElem?_set_ne, hl]
      rintro rfl
      exact of_decide_eq_true hother (hidl.trans hid.symm)
    · intro l c hl
      rw [hlanes] at hl
      by_cases heq : laneIdx' = l
      · subst heq
        obtain ⟨hlt, -⟩ := List.getElem?_eq_some_iff.mp hwaiting
        rw [List.getElem?_set_self hlt] at hl
        obtain rfl := Option.some.inj (Option.some.inj hl)
        exact hclient
      · rw [List.getElem?_set_ne heq] at hl
        exact h.server.connected l c hl

/-- A hello that was written changes nothing of the handshake. -/
theorem Handshake.helloWritten (h : Handshake numLanes first addresses channel registrations)
    (who : Bool) {call : HelloCall} (hcall : call ≠ .readServerHello) :
    Handshake numLanes first addresses
      (Function.update channel who ((channel who).step (.helloWritten call false)))
      registrations := by
  have hstep : (channel who).step (.helloWritten call false)
      = { channel who with hello := (channel who).hello.reported call } :=
    ChannelImpl.setError_none
  rw [hstep]
  cases who with
  | false =>
      refine ⟨?_, ?_, h.server⟩
      · intro who
        cases who with
        | false => exact (h.healthy false).frame rfl rfl
        | true => exact h.healthy true
      · rw [Function.update_self]
        rcases h.client with hreading | ⟨connections, hconnected⟩
        · refine .inl ⟨hreading.state, hreading.lanes, ?_⟩
          show (channel false).hello.reported call = _
          rw [hreading.hello, Io.reported, List.erase_of_not_mem]
          exact fun hmem => hcall (List.mem_singleton.mp hmem)
        · exact .inr ⟨connections, hconnected.state, hconnected.lanes, hconnected.length,
            hconnected.nodup, fun hmem => hconnected.heard (List.mem_of_mem_erase hmem),
            hconnected.told⟩
  | true =>
      refine ⟨?_, h.client, ?_⟩
      · intro who
        cases who with
        | false => exact h.healthy false
        | true => exact (h.healthy true).frame rfl rfl
      · rw [Function.update_self]
        exact ⟨h.server.length, h.server.advertised, h.server.accepting, h.server.state,
          h.server.registered, h.server.connected⟩

end Handshake

-- ── The invariant of the pair ────────────────────────────────────────────────

/-- The bytes of every frame that was read are where they belong. -/
def Landed {β : Type} (numLanes : Nat) (lengths : Nat → Nat) (contents : Nat → Nat → β)
    (lanes : List (Option Nat)) (l : Link β) : Prop :=
  ∀ n laneIdx o, travels lengths n = true → laneIdx < numLanes →
    indexOf (travels lengths) n < carriedBy lanes l.read laneIdx →
    (chunk numLanes (submitted lengths l.target n) laneIdx).covers n o = true →
    l.arrived n o = some (contents n o)

/-- How far the handshake is, what the lanes have carried for each half of each channel, and
    what has arrived. -/
structure Inv {β : Type} (numLanes first : Nat) (addresses : List String)
    (lengths : Bool → Nat → Nat) (contents : Bool → Nat → Nat → β) (p : Pair β) : Prop where
  handshake : Handshake numLanes first addresses p.channel p.connectionRequestRegistrations
  sends : ∀ who, Half numLanes (p.channel who).isEstablished (p.channel who).lanes (lengths who)
    (p.link who).source (p.link who).written (p.channel who).send
  recvs : ∀ who, Half numLanes (p.channel who).isEstablished (p.channel who).lanes (lengths !who)
    (p.link !who).target (p.link !who).read (p.channel who).recv
  landed : ∀ who, Landed numLanes (lengths !who) (contents !who) (p.channel who).lanes
    (p.link !who)

section Invariant

variable {β : Type} {numLanes first : Nat} {addresses : List String}
  {lengths : Bool → Nat → Nat} {contents : Bool → Nat → Nat → β} {p : Pair β}

/-- Where nothing was read, nothing has landed. -/
theorem landed_idle {lengths : Nat → Nat} {contents : Nat → Nat → β} {l : Link β}
    (h : ∀ connection, l.read connection = 0) (lanes : List (Option Nat)) :
    Landed numLanes lengths contents lanes l := by
  intro n laneIdx o _ _ hlt
  rw [carriedBy_idle h] at hlt
  exact absurd hlt (Nat.not_lt_zero _)

/-- Before its first tensor a direction has nothing in it. -/
theorem half_empty (numLanes : Nat) (lengths : Nat → Nat) (lanes : List (Option Nat)) :
    Half numLanes false lanes lengths (fun _ => 0) (fun _ => 0) {} := by
  refine ⟨?_, fun _ _ => rfl⟩
  have hzero : carriedBy lanes (fun _ => 0) = fun _ => 0 :=
    funext (carriedBy_idle (fun _ => rfl))
  rw [hzero]
  exact laneImage_empty numLanes lengths (fun _ => 0)

/-- Two new ends satisfy the invariant. -/
theorem inv_init (hlanes : 0 < numLanes) (addresses : List String) (first : Nat) :
    Inv numLanes first addresses lengths contents
      (Pair.init numLanes addresses first : Pair β) := by
  have hserver : (Pair.init numLanes addresses first : Pair β).channel true = _ :=
    init_server numLanes addresses first
  refine ⟨handshake_init hlanes addresses first β, ?_, ?_, fun _ => landed_idle (fun _ => rfl) _⟩
  · intro who
    cases who with
    | false => exact half_empty numLanes (lengths false) _
    | true =>
        rw [hserver]
        exact half_empty numLanes (lengths true) _
  · intro who
    cases who with
    | false => exact half_empty numLanes (lengths true) _
    | true =>
        rw [hserver]
        exact half_empty numLanes (lengths false) _

/-- Where an update keeps a field, it is kept everywhere. -/
theorem update_keeps {γ δ : Type} (field : γ → δ) {f : Bool → γ} {who : Bool} {v : γ}
    (hv : field v = field (f who)) (w : Bool) :
    field (Function.update f who v w) = field (f w) := by
  by_cases hw : w = who
  · subst hw
    rw [Function.update_self, hv]
  · rw [Function.update_of_ne hw]

/-- Something happens to what a channel sends. -/
theorem inv_sending (h : Inv numLanes first addresses lengths contents p) (who : Bool)
    {side : Side SendOperation LaneCall} {l : Link β}
    (hsame : l = { p.link who with source := l.source, written := l.written })
    (hside : Half numLanes (p.channel who).isEstablished (p.channel who).lanes (lengths who)
      l.source l.written side) :
    Inv numLanes first addresses lengths contents { p with
      channel := Function.update p.channel who { p.channel who with send := side }
      link := Function.update p.link who l } := by
  have hestablished (w : Bool) :
      (Function.update p.channel who { p.channel who with send := side } w).isEstablished
      = (p.channel w).isEstablished := update_keeps ChannelImpl.isEstablished (by rfl) w
  have hlanes (w : Bool) :
      (Function.update p.channel who { p.channel who with send := side } w).lanes
      = (p.channel w).lanes := update_keeps ChannelImpl.lanes (by rfl) w
  have hrecv (w : Bool) : (Function.update p.channel who { p.channel who with send := side } w).recv
      = (p.channel w).recv := update_keeps ChannelImpl.recv (by rfl) w
  have htarget (d : Bool) : (Function.update p.link who l d).target = (p.link d).target :=
    update_keeps Link.target (congrArg Link.target hsame :) d
  have hread (d : Bool) : (Function.update p.link who l d).read = (p.link d).read :=
    update_keeps Link.read (congrArg Link.read hsame :) d
  have harrived (d : Bool) : (Function.update p.link who l d).arrived = (p.link d).arrived :=
    update_keeps Link.arrived (congrArg Link.arrived hsame :) d
  refine ⟨h.handshake.frame (fun w => ?_), fun w => ?_, fun w => ?_, fun w => ?_⟩
  · by_cases hw : w = who
    · subst hw
      simp only [Function.update_self]
    · simp only [Function.update_of_ne hw]
  · show Half numLanes (Function.update p.channel who _ w).isEstablished
      (Function.update p.channel who _ w).lanes (lengths w) (Function.update p.link who l w).source
      (Function.update p.link who l w).written (Function.update p.channel who _ w).send
    rw [hestablished, hlanes]
    by_cases hw : w = who
    · subst hw
      rw [Function.update_self, Function.update_self]
      exact hside
    · rw [Function.update_of_ne hw, Function.update_of_ne hw]
      exact h.sends w
  · show Half numLanes (Function.update p.channel who _ w).isEstablished
      (Function.update p.channel who _ w).lanes (lengths !w)
      (Function.update p.link who l !w).target
      (Function.update p.link who l !w).read (Function.update p.channel who _ w).recv
    rw [hestablished, hlanes, hrecv, htarget, hread]
    exact h.recvs w
  · show Landed numLanes (lengths !w) (contents !w) (Function.update p.channel who _ w).lanes
      (Function.update p.link who l !w)
    rw [hlanes, Landed, htarget, hread, harrived]
    exact h.landed w

/-- Something happens to what a channel receives. -/
theorem inv_receiving (h : Inv numLanes first addresses lengths contents p) (who : Bool)
    {side : Side RecvOperation LaneCall} {l : Link β}
    (hsame : l = { p.link !who with target := l.target, read := l.read, arrived := l.arrived })
    (hside : Half numLanes (p.channel who).isEstablished (p.channel who).lanes (lengths !who)
      l.target l.read side)
    (hlanded : Landed numLanes (lengths !who) (contents !who) (p.channel who).lanes l) :
    Inv numLanes first addresses lengths contents { p with
      channel := Function.update p.channel who { p.channel who with recv := side }
      link := Function.update p.link (!who) l } := by
  have hestablished (w : Bool) :
      (Function.update p.channel who { p.channel who with recv := side } w).isEstablished
      = (p.channel w).isEstablished := update_keeps ChannelImpl.isEstablished (by rfl) w
  have hlanes (w : Bool) :
      (Function.update p.channel who { p.channel who with recv := side } w).lanes
      = (p.channel w).lanes := update_keeps ChannelImpl.lanes (by rfl) w
  have hsend (w : Bool) : (Function.update p.channel who { p.channel who with recv := side } w).send
      = (p.channel w).send := update_keeps ChannelImpl.send (by rfl) w
  have hsource (d : Bool) : (Function.update p.link (!who) l d).source = (p.link d).source :=
    update_keeps Link.source (congrArg Link.source hsame :) d
  have hwritten (d : Bool) : (Function.update p.link (!who) l d).written = (p.link d).written :=
    update_keeps Link.written (congrArg Link.written hsame :) d
  refine ⟨h.handshake.frame (fun w => ?_), fun w => ?_, fun w => ?_, fun w => ?_⟩
  · by_cases hw : w = who
    · subst hw
      simp only [Function.update_self]
    · simp only [Function.update_of_ne hw]
  · show Half numLanes (Function.update p.channel who _ w).isEstablished
      (Function.update p.channel who _ w).lanes (lengths w)
      (Function.update p.link (!who) l w).source
      (Function.update p.link (!who) l w).written (Function.update p.channel who _ w).send
    rw [hestablished, hlanes, hsend, hsource, hwritten]
    exact h.sends w
  · show Half numLanes (Function.update p.channel who _ w).isEstablished
      (Function.update p.channel who _ w).lanes (lengths !w)
      (Function.update p.link (!who) l !w).target
      (Function.update p.link (!who) l !w).read (Function.update p.channel who _ w).recv
    rw [hestablished, hlanes]
    by_cases hw : w = who
    · subst hw
      rw [Function.update_self, Function.update_self]
      exact hside
    · rw [Function.update_of_ne hw, Function.update_of_ne (fun heq => hw (Bool.not_inj heq))]
      exact h.recvs w
  · show Landed numLanes (lengths !w) (contents !w) (Function.update p.channel who _ w).lanes
      (Function.update p.link (!who) l !w)
    rw [hlanes]
    by_cases hw : w = who
    · subst hw
      rw [Function.update_self]
      exact hlanded
    · rw [Function.update_of_ne (fun heq => hw (Bool.not_inj heq))]
      exact h.landed w

/-- The handshake moves on. -/
theorem inv_shaking (h : Inv numLanes first addresses lengths contents p) (who : Bool)
    {x : ChannelImpl} {registrations : List (Nat × Nat)}
    (hhandshake : Handshake numLanes first addresses (Function.update p.channel who x)
      registrations)
    (hsend : Half numLanes x.isEstablished x.lanes (lengths who) (p.link who).source
      (p.link who).written x.send)
    (hrecv : Half numLanes x.isEstablished x.lanes (lengths !who) (p.link !who).target
      (p.link !who).read x.recv)
    (hlanded : Landed numLanes (lengths !who) (contents !who) x.lanes (p.link !who)) :
    Inv numLanes first addresses lengths contents { p with
      channel := Function.update p.channel who x
      connectionRequestRegistrations := registrations } := by
  refine ⟨hhandshake, fun w => ?_, fun w => ?_, fun w => ?_⟩
  all_goals by_cases hw : w = who
  · subst hw
    simp only [Function.update_self]
    exact hsend
  · simp only [Function.update_of_ne hw]
    exact h.sends w
  · subst hw
    simp only [Function.update_self]
    exact hrecv
  · simp only [Function.update_of_ne hw]
    exact h.recvs w
  · subst hw
    simp only [Function.update_self]
    exact hlanded
  · simp only [Function.update_of_ne hw]
    exact h.landed w

/-- A call of `send` keeps the invariant. -/
theorem inv_send (hlanes : 0 < numLanes) (h : Inv numLanes first addresses lengths contents p)
    (who : Bool) (ptr : Nat) :
    Inv numLanes first addresses lengths contents
      ((p.act who (.send ptr (lengths who (p.channel who).send.next))).withLink who
        ((p.link who).onSend (p.channel who).send.next ptr)) := by
  have hstep :=
    ChannelImpl.step_send (h.handshake.healthy who) ptr (lengths who (p.channel who).send.next)
  rw [Pair.withLink, Pair.act, hstep]
  exact inv_sending h who (l := (p.link who).onSend _ ptr) rfl
    (half_submit hlanes (h.sends who) ptr)

/-- A call of `recv` keeps the invariant. -/
theorem inv_recv (hlanes : 0 < numLanes) (h : Inv numLanes first addresses lengths contents p)
    (who : Bool) (ptr : Nat) :
    Inv numLanes first addresses lengths contents
      ((p.act who (.recv ptr (lengths (!who) (p.channel who).recv.next))).withLink (!who)
        ((p.link !who).onRecv (p.channel who).recv.next ptr)) := by
  have hstep :=
    ChannelImpl.step_recv (h.handshake.healthy who) ptr (lengths (!who) (p.channel who).recv.next)
  rw [Pair.withLink, Pair.act, hstep]
  refine inv_receiving h who (l := (p.link !who).onRecv _ ptr) rfl
    (half_submit hlanes (h.recvs who) ptr) ?_
  intro n laneIdx o htravels hlane hread hcovers
  -- no frame has been read yet for the operation that is new
  have hne : n ≠ (p.channel who).recv.next := by
    rintro rfl
    exact Nat.not_lt.mpr ((h.recvs who).image.bound laneIdx hlane) hread
  have htarget : ((p.link !who).onRecv (p.channel who).recv.next ptr).target n
      = (p.link !who).target n := Function.update_of_ne hne _ _
  rw [submitted, htarget] at hcovers
  exact h.landed who n laneIdx o htravels hlane hread hcovers

/-- A completed write keeps the invariant. -/
theorem inv_written (h : Inv numLanes first addresses lengths contents p) (who : Bool)
    {connection : Nat} {w : LaneCall}
    (hw : ((p.channel who).writesOn connection)[(p.link who).written connection]? = some w) :
    Inv numLanes first addresses lengths contents
      ((p.act who (.sendReport w false)).withLink who ((p.link who).onWritten connection)) := by
  have hstep := ChannelImpl.step_sendReport (h.handshake.healthy who) w
  rw [Pair.withLink, Pair.act, hstep]
  exact inv_sending h who (l := (p.link who).onWritten connection) rfl
    (half_report (h.sends who) (h.handshake.distinct_lanes who) hw)

/-- The k-th frame on a connection and the k-th read of it are for the same chunk. -/
theorem inv_matched (h : Inv numLanes first addresses lengths contents p) (who : Bool)
    {connection k : Nat} {w r : LaneCall}
    (hw : ((p.channel !who).writesOn connection)[k]? = some w)
    (hr : ((p.channel who).readsOn connection)[k]? = some r) :
    ∃ laneIdx n, laneIdx < numLanes
      ∧ (p.channel who).lanes[laneIdx]? = some (some connection)
      ∧ (numbersBelow (travels (lengths !who)) (p.channel who).recv.next)[k]? = some n
      ∧ w = chunk numLanes (submitted (lengths !who) (p.link !who).source n) laneIdx
      ∧ r = chunk numLanes (submitted (lengths !who) (p.link !who).target n) laneIdx := by
  obtain ⟨-, l, m, -, hl, hm, hwchunk⟩ :=
    half_call (h.sends !who) (h.handshake.distinct_lanes !who) hw
  obtain ⟨-, laneIdx, n, hlane, hconnection, hn, hrchunk⟩ :=
    half_call (h.recvs who) (h.handshake.distinct_lanes who) hr
  obtain rfl := h.handshake.same_lane hl hconnection
  obtain rfl := numbersBelow_agree hm hn
  exact ⟨l, m, hlane, hconnection, hn, hwchunk, hrchunk⟩

/-- A completed read keeps the invariant, its bytes having landed. -/
theorem inv_read (h : Inv numLanes first addresses lengths contents p) (who : Bool)
    {connection : Nat} {w r : LaneCall}
    (hw : ((p.channel !who).writesOn connection)[(p.link !who).read connection]? = some w)
    (hr : ((p.channel who).readsOn connection)[(p.link !who).read connection]? = some r) :
    Inv numLanes first addresses lengths contents
      ((p.act who (.recvReport r false)).withLink (!who)
        ((p.link !who).onRead (contents !who) connection w r)) := by
  have hstep := ChannelImpl.step_recvReport (h.handshake.healthy who) r
  rw [Pair.withLink, Pair.act, hstep]
  have hdistinct := h.handshake.distinct_lanes who
  refine inv_receiving h who (l := (p.link !who).onRead (contents !who) connection w r) rfl
    (half_report (h.recvs who) hdistinct hr) ?_
  obtain ⟨laneIdx, n, hlane, hconnection, hn, rfl, rfl⟩ := inv_matched h who hw hr
  obtain ⟨-, htravels, hindex⟩ := numbersBelow_getElem?.mp hn
  intro m l o hm hl hread hcovers
  rw [Link.onRead, carriedBy_update hdistinct hconnection] at hread
  obtain ⟨hseq, hfrom, huntil⟩ := of_decide_eq_true hcovers
  show (if _ then _ else _) = _
  split
  case isTrue hin =>
    obtain ⟨rfl, -, hle, -⟩ := hin
    have hplace : cutpoint (lengths (!who) n) numLanes laneIdx
        + (o - cutpoint (lengths (!who) n) numLanes laneIdx) = o := Nat.add_sub_cancel' hle
    exact congrArg (fun place => some (contents (!who) n place)) hplace
  case isFalse hout =>
    refine h.landed who m l o hm hl ?_ hcovers
    by_cases heq : l = laneIdx
    · subst heq
      rw [Function.update_self, carriedBy_some hconnection] at hread
      rw [carriedBy_some hconnection]
      refine Nat.lt_of_le_of_ne (Nat.le_of_lt_succ hread) (fun hturn => hout ?_)
      -- it is this read, which lands there
      obtain rfl := indexOf_inj htravels hm (hindex.trans hturn.symm)
      exact ⟨rfl, rfl, hfrom, huntil⟩
    · rwa [Function.update_of_ne heq] at hread

/-- The server has not accepted all lanes while it is registered for one. -/
theorem server_waits (h : Handshake numLanes first addresses p.channel
    p.connectionRequestRegistrations) {registrationId laneIdx : Nat}
    (hregistered : (registrationId, laneIdx) ∈ p.connectionRequestRegistrations) :
    (p.channel true).isEstablished = false := by
  obtain ⟨-, hwaiting⟩ := h.server.registered registrationId laneIdx hregistered
  have hpos : (p.channel true).lanes.count none ≠ 0 :=
    Nat.ne_of_gt (List.count_pos_iff.mpr (List.mem_of_getElem? hwaiting))
  rw [ChannelImpl.isEstablished, h.server.state, if_neg hpos]
  rfl

/-- Reading the hello of the server keeps the invariant. -/
theorem inv_serverHello (hlanes : 0 < numLanes)
    (h : Inv numLanes first addresses lengths contents p)
    {laneAdvertisements : List LaneAdvertisement} {connections : List Nat}
    (hhello : (p.channel true).hello.issued.findSome? HelloCall.serverHello?
      = some laneAdvertisements)
    (hwaits : .readServerHello ∈ (p.channel false).hello.calls)
    (hlength : connections.length = numLanes) (hnodup : connections.Nodup) :
    Inv numLanes first addresses lengths contents
      (p.act false (.serverHello false laneAdvertisements connections)) := by
  obtain ⟨call, hissued, hcall⟩ := List.exists_of_findSome?_eq_some hhello
  have hadvertised : laneAdvertisements = advertisements numLanes first addresses := by
    cases call with
    | writeServerHello laneAdvertisements' =>
        obtain rfl := Option.some.inj hcall
        exact h.handshake.server.advertised _ hissued
    | _ => exact nomatch hcall
  subst hadvertised
  rcases h.handshake.client with hreading | ⟨connections', hconnected⟩
  · have hadvertised : (advertisements numLanes first addresses).length = connections.length := by
      rw [advertisements, List.length_map, List.length_range, hlength]
    have hnone : (p.channel false).lanes.length = connections.length := by
      rw [hreading.lanes, List.length_replicate, hlength]
    have hidle : (p.channel false).isEstablished = false := by
      rw [ChannelImpl.isEstablished, hreading.state]
      rfl
    have hsend := h.sends false
    have hrecv := h.recvs false
    rw [hidle] at hsend hrecv
    have hstep := ChannelImpl.step_serverHello (h.handshake.healthy false) hnone hadvertised
    refine inv_shaking h false (h.handshake.serverHello hwaits hlength hnodup) ?_ ?_
      (landed_idle (hrecv.idle rfl) _)
    · rw [hstep]
      exact half_established hlanes (half_lanes hsend (connections.map some))
    · rw [hstep]
      exact half_established hlanes (half_lanes hrecv (connections.map some))
  · exact absurd hwaits hconnected.heard

/-- Reading the hello of a lane keeps the invariant. -/
theorem inv_clientHello (hlanes : 0 < numLanes)
    (h : Inv numLanes first addresses lengths contents p) {connection registrationId : Nat}
    (hhello : (p.channel false).hello.issued.findSome? (HelloCall.clientHelloOn connection)
      = some registrationId) :
    Inv numLanes first addresses lengths contents
      (p.onReadClientHelloOnLane connection registrationId) := by
  obtain ⟨call, hissued, hcall⟩ := List.exists_of_findSome?_eq_some hhello
  obtain ⟨laneIdx, rfl⟩ : ∃ laneIdx,
      call = .writeClientHello laneIdx connection registrationId := by
    cases call with
    | writeClientHello laneIdx connection' registrationId' =>
        rw [HelloCall.clientHelloOn] at hcall
        split at hcall
        case isTrue hsame =>
          obtain rfl := Option.some.inj hcall
          exact ⟨laneIdx, by rw [hsame]⟩
        case isFalse => exact nomatch hcall
    | _ => exact nomatch hcall
  rw [Pair.onReadClientHelloOnLane]
  split
  case h_1 => exact h
  case h_2 r hfind =>
    have hregistered : (registrationId, r.2) ∈ p.connectionRequestRegistrations := by
      have hid := List.find?_some hfind
      rw [← (beq_iff_eq.mp hid : r.1 = registrationId)]
      exact List.mem_of_find?_eq_some hfind
    have hidle := server_waits h.handshake hregistered
    have hsend := h.sends true
    have hrecv := h.recvs true
    rw [hidle] at hsend hrecv
    have hhandshake := h.handshake.accept hissued hregistered
    by_cases hlast : (p.channel true).numLanesBeingAccepted - 1 = 0
    · have hstep := ChannelImpl.step_acceptOfLane_last (h.handshake.healthy true) r.2 registrationId
        connection hlast
      refine inv_shaking h true hhandshake ?_ ?_ (landed_idle (hrecv.idle rfl) _)
      · rw [hstep]
        exact half_established hlanes (half_lanes hsend _)
      · rw [hstep]
        exact half_established hlanes (half_lanes hrecv _)
    · have hstep := ChannelImpl.step_acceptOfLane_more (h.handshake.healthy true) r.2 registrationId
        connection hlast
      have hmore : ((p.channel true).step (.acceptOfLane false r.2 registrationId
          connection)).isEstablished = false := by
        rw [hstep]
        exact hidle
      refine inv_shaking h true hhandshake ?_ ?_ (landed_idle (hrecv.idle rfl) _)
      · rw [hmore, hstep]
        exact half_lanes hsend _
      · rw [hmore, hstep]
        exact half_lanes hrecv _

/-- A hello that was written keeps the invariant. -/
theorem inv_helloWritten (h : Inv numLanes first addresses lengths contents p) (who : Bool)
    {call : HelloCall} (hcall : call ≠ .readServerHello) :
    Inv numLanes first addresses lengths contents
      (p.act who (.helloWritten call false)) := by
  have hstep : (p.channel who).step (.helloWritten call false)
      = { p.channel who with hello := (p.channel who).hello.reported call } :=
    ChannelImpl.setError_none
  refine inv_shaking h who (h.handshake.helloWritten who hcall) ?_ ?_ ?_
  · rw [hstep]
    exact h.sends who
  · rw [hstep]
    exact h.recvs who
  · rw [hstep]
    exact h.landed who

/-- Every step keeps the invariant. -/
theorem inv_step (hlanes : 0 < numLanes) (h : Inv numLanes first addresses lengths contents p)
    {event : Event} {p' : Pair β} (hstep : p.step lengths contents event = some p') :
    Inv numLanes first addresses lengths contents p' := by
  cases event with
  | send who ptr =>
      obtain rfl := Option.some.inj hstep
      exact inv_send hlanes h who ptr
  | recv who ptr =>
      obtain rfl := Option.some.inj hstep
      exact inv_recv hlanes h who ptr
  | serverHello connections =>
      simp only [Pair.step] at hstep
      split at hstep
      case h_1 => exact nomatch hstep
      case h_2 laneAdvertisements hhello =>
        split at hstep
        case isFalse => exact nomatch hstep
        case isTrue hguard =>
          obtain rfl := Option.some.inj hstep
          exact inv_serverHello hlanes h hhello hguard.1
            (hguard.2.1.trans (h.handshake.healthy false).numLanes) hguard.2.2
  | clientHello connection =>
      simp only [Pair.step] at hstep
      split at hstep
      case h_1 => exact nomatch hstep
      case h_2 registrationId hhello =>
        obtain rfl := Option.some.inj hstep
        exact inv_clientHello hlanes h hhello
  | helloWritten who call =>
      have hcall : call ≠ .readServerHello := by
        rintro rfl
        exact nomatch hstep
      cases call with
      | readServerHello => exact absurd rfl hcall
      | connectionRequest laneIdx registrationId => exact nomatch hstep
      | writeServerHello laneAdvertisements =>
          simp only [Pair.step] at hstep
          split at hstep
          case isFalse => exact nomatch hstep
          case isTrue =>
            obtain rfl := Option.some.inj hstep
            exact inv_helloWritten h who hcall
      | writeClientHello laneIdx connection registrationId =>
          simp only [Pair.step] at hstep
          split at hstep
          case isFalse => exact nomatch hstep
          case isTrue =>
            obtain rfl := Option.some.inj hstep
            exact inv_helloWritten h who hcall
  | written who connection =>
      simp only [Pair.step] at hstep
      split at hstep
      case h_1 => exact nomatch hstep
      case h_2 w hw =>
        obtain rfl := Option.some.inj hstep
        exact inv_written h who hw
  | read who connection =>
      simp only [Pair.step] at hstep
      split at hstep
      case h_1 w r hw hr =>
        obtain rfl := Option.some.inj hstep
        exact inv_read h who hw hr
      case h_2 => exact nomatch hstep

/-- Every pair that can be reached satisfies the invariant. -/
theorem inv_of_reachable (hlanes : 0 < numLanes)
    (h : Pair.Reachable numLanes lengths contents p) :
    ∃ first addresses, Inv numLanes first addresses lengths contents p := by
  induction h with
  | init addresses first => exact ⟨first, addresses, inv_init hlanes addresses first⟩
  | step h event hstep ih =>
      obtain ⟨first, addresses, hinv⟩ := ih
      exact ⟨first, addresses, inv_step hlanes hinv hstep⟩

end Invariant

-- ── What arrives ─────────────────────────────────────────────────────────────

/-- What two connected channels do.  The server is established exactly when it has all its
    lanes, each with the connection of the same lane of the client.  The i-th write and the i-th
    read on a connection are for the same chunk of the same tensor, out of and into the buffers
    that were given for it.  The chunks of a tensor tile it, at either end.  And a receive that
    succeeds has got what was sent. -/
structure Delivered {β : Type} (numLanes : Nat) (lengths : Bool → Nat → Nat)
    (contents : Bool → Nat → Nat → β) (p : Pair β) : Prop where
  established : (p.channel true).state = .established ↔ ∀ laneIdx < numLanes, ∃ connection,
    (p.channel true).lanes[laneIdx]? = some (some connection)
  connected : ∀ laneIdx connection : Nat,
    (p.channel true).lanes[laneIdx]? = some (some connection) →
      (p.channel false).lanes[laneIdx]? = some (some connection)
  matched : ∀ (who : Bool) (connection i : Nat) (w r : LaneCall),
    ((p.channel !who).writesOn connection)[i]? = some w →
    ((p.channel who).readsOn connection)[i]? = some r →
      w.laneIdx = r.laneIdx ∧ w.sequenceNumber = r.sequenceNumber ∧ w.offset = r.offset
        ∧ w.length = r.length ∧ w.ptr = (p.link !who).source w.sequenceNumber
        ∧ r.ptr = (p.link !who).target r.sequenceNumber
  tiledSends : ∀ who, (p.channel who).state = .established →
    ∀ n < (p.channel who).send.next, ∀ o,
      (p.channel who).send.io.issued.countP (·.covers n o) = if o < lengths who n then 1 else 0
  tiledRecvs : ∀ who, (p.channel who).state = .established →
    ∀ n < (p.channel who).recv.next, ∀ o,
      (p.channel who).recv.io.issued.countP (·.covers n o)
        = if o < lengths (!who) n then 1 else 0
  received : ∀ who n, (n, false) ∈ (p.channel who).recv.io.callbacks →
    ∀ o < lengths (!who) n, (p.link !who).arrived n o = some (contents (!who) n o)

section Delivery

variable {β : Type} {numLanes first : Nat} {addresses : List String}
  {lengths : Bool → Nat → Nat} {contents : Bool → Nat → Nat → β} {p : Pair β}

/-- The listening end is established when all its lanes are open. -/
theorem established_iff (h : Handshake numLanes first addresses p.channel
    p.connectionRequestRegistrations) : (p.channel true).state = .established
      ↔ ∀ laneIdx < numLanes, ∃ connection,
        (p.channel true).lanes[laneIdx]? = some (some connection) := by
  have hstate : (p.channel true).state = .established ↔ none ∉ (p.channel true).lanes := by
    rw [h.server.state, ← List.count_eq_zero]
    constructor
    · intro hestablished
      by_contra hcount
      rw [if_neg hcount] at hestablished
      exact nomatch hestablished
    · intro hcount
      rw [if_pos hcount]
  rw [hstate, ← h.server.length]
  constructor
  · intro hnone laneIdx hlane
    cases hget : (p.channel true).lanes[laneIdx] with
    | none => exact absurd (hget ▸ List.getElem_mem hlane) hnone
    | some connection => exact ⟨connection, List.getElem?_eq_some_iff.mpr ⟨hlane, hget⟩⟩
  · intro hall hnone
    obtain ⟨laneIdx, hlane, hget⟩ := List.mem_iff_getElem.mp hnone
    obtain ⟨connection, hsome⟩ := hall laneIdx hlane
    rw [List.getElem?_eq_getElem hlane, hget] at hsome
    exact nomatch hsome

/-- Once the lanes are there, the chunks of a half tile its tensors. -/
theorem half_tiles {established : Bool} {lanes : List (Option Nat)}
    {lengths ptrs counts : Nat → Nat} {x : Side LaneOperation LaneCall} (hlanes : 0 < numLanes)
    (hsmall : ∀ n, lengths n * numLanes < 2 ^ 64)
    (h : Half numLanes established lanes lengths ptrs counts x) (hestablished : established = true)
    {n : Nat} (hn : n < x.next) (o : Nat) :
    x.io.issued.countP (·.covers n o) = if o < lengths n then 1 else 0 := by
  rw [h.image.issued, if_pos hestablished, chunksBelow_tile hlanes hsmall]
  exact if_congr (and_iff_right hn) rfl rfl

/-- A receive that succeeds has got every chunk. -/
theorem received_of_callback (hlanes : 0 < numLanes)
    (hsmall : ∀ d n, lengths d n * numLanes < 2 ^ 64)
    (h : Inv numLanes first addresses lengths contents p) {who error : Bool} {n : Nat}
    (hcallback : (n, error) ∈ (p.channel who).recv.io.callbacks) {o : Nat}
    (ho : o < lengths (!who) n) :
    (p.link !who).arrived n o = some (contents (!who) n o) := by
  have htravels : travels (lengths !who) n = true :=
    bne_iff_ne.mpr (Nat.ne_of_gt (Nat.zero_lt_of_lt ho))
  have htile := @chunks_tile numLanes (submitted (lengths !who) (p.link !who).target n) hlanes
    (hsmall (!who) n) o
  rw [if_pos (show o < (submitted (lengths !who) (p.link !who).target n).length from ho)] at htile
  obtain ⟨call, hcall, hcovers⟩ := List.countP_pos_iff.mp (Nat.lt_of_lt_of_eq Nat.one_pos htile.symm)
  obtain ⟨laneIdx, hlane, rfl⟩ := List.mem_map.mp hcall
  have hlt := List.mem_range.mp hlane
  exact h.landed who n laneIdx o htravels hlt
    ((h.recvs who).image.callbacks n error hcallback htravels laneIdx hlt) hcovers

/-- **Whatever the order in which the lanes are accepted and carry their frames, what is
    received is what was sent.** -/
theorem lanes_deliver (hlanes : 0 < numLanes) (hsmall : ∀ d n, lengths d n * numLanes < 2 ^ 64)
    (h : Pair.Reachable numLanes lengths contents p) : Delivered numLanes lengths contents p := by
  obtain ⟨first, addresses, hinv⟩ := inv_of_reachable hlanes h
  refine ⟨established_iff hinv.handshake, hinv.handshake.server.connected, ?_, ?_, ?_, ?_⟩
  · intro who connection i w r hw hr
    obtain ⟨laneIdx, n, -, -, -, rfl, rfl⟩ := inv_matched hinv who hw hr
    exact ⟨rfl, rfl, rfl, rfl, rfl, rfl⟩
  · intro who hstate n hn o
    exact half_tiles hlanes (hsmall who) (hinv.sends who) (decide_eq_true hstate) hn o
  · intro who hstate n hn o
    exact half_tiles hlanes (hsmall !who) (hinv.recvs who) (decide_eq_true hstate) hn o
  · intro who n hcallback o ho
    exact received_of_callback hlanes hsmall hinv hcallback ho

end Delivery

namespace Pair

variable {β : Type} {numLanes : Nat} {lengths : Bool → Nat → Nat}
  {contents : Bool → Nat → Nat → β}

/-- Several events in a row. -/
def run (lengths : Bool → Nat → Nat) (contents : Bool → Nat → Nat → β) (p : Pair β) :
    List Event → Option (Pair β)
  | [] => some p
  | event :: rest => (p.step lengths contents event).bind (fun p => p.run lengths contents rest)

/-- A run of events leads to a pair that can be reached. -/
theorem reachable_run (events : List Event) : ∀ {p p' : Pair β},
    Reachable numLanes lengths contents p → p.run lengths contents events = some p' →
      Reachable numLanes lengths contents p' := by
  induction events with
  | nil =>
      intro p p' h hrun
      obtain rfl := Option.some.inj hrun
      exact h
  | cons event events ih =>
      intro p p' h hrun
      obtain ⟨q, hq, hrest⟩ := Option.bind_eq_some_iff.mp hrun
      exact ih (h.step event hq) hrest

end Pair

/-- Three bytes, an empty tensor and two bytes from the client to the server. -/
def threeLengths (d : Bool) (n : Nat) : Nat := if d then 0 else [3, 0, 2].getD n 0

/-- Contents in which every byte shows its tensor and its place. -/
def threeContents (_ : Bool) (n o : Nat) : Nat := 10 * n + o

/-- The tensors are there before the lanes, which the server accepts in the other order. -/
def threeEvents : List Event :=
  [.send false 1, .recv true 4, .recv true 5, .serverHello [7, 8], .send false 2, .send false 3,
    .recv true 6, .clientHello 8, .written false 8, .clientHello 7, .read true 8, .written false 7,
    .read true 8, .written false 8, .read true 7, .read true 7]

/-- Where these events lead. -/
theorem threeEvents_run : ((Pair.init 2 ["", ""] 40 : Pair Nat).run threeLengths threeContents
      threeEvents).map (fun p => decide ((p.channel true).state = .established
        ∧ (p.channel true).recv.io.callbacks = [(1, false), (0, false), (2, false)]))
    = some true := by
  decide +kernel

theorem lanes_deliver_three : ∃ p : Pair Nat, (p.channel true).state = .established
    ∧ (p.channel true).recv.io.callbacks = [(1, false), (0, false), (2, false)]
    ∧ Delivered 2 threeLengths threeContents p := by
  obtain ⟨p, hrun, hdone⟩ := Option.map_eq_some_iff.mp threeEvents_run
  obtain ⟨hestablished, hcallbacks⟩ := of_decide_eq_true hdone
  have hsmall : ∀ d n, threeLengths d n * 2 < 2 ^ 64 := by
    intro d n
    have hle : threeLengths d n ≤ 3 := by
      rw [threeLengths]
      split
      · exact Nat.zero_le 3
      · rcases n with _ | _ | _ | n
        all_goals simp
    omega
  exact ⟨p, hestablished, hcallbacks,
    lanes_deliver (by decide) hsmall (Pair.reachable_run threeEvents (.init ["", ""] 40) hrun)⟩

end TpMpt
