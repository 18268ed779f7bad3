import ReliableService.Clients.Disconnect
import ReliableService.Network.Formats

/-!
# The broker on frames

`run_matches` is the reason why the rest of the development may speak of messages: a run of the
broker on frames is the run on the messages they hold.  It meets the same states and the same
faults, and what it sends are frames in which any receiver finds the messages the other run sends,
in front of them the identity of the client they are for (`Carries`).

The two brokers do the same with the database, so that each handler is followed step by step
(`Outcome.Matches.bind`), and only the sends are compared.  The identity is the one thing that is
not swapped: the broker builds it again in its own order, and it comes out as the client's own
because it was taken apart in the same order.
-/

namespace ReliableService

variable {nmr : UInt8} {host : ByteOrder} {α : Type}

/-- A frame in which every receiver finds the response. -/
def HoldsResponse (data : Frame) (response : ResponseModule) : Prop :=
  ∀ receiver, ∃ arrived, loadResponseModule receiver data = some arrived ∧ response.Arrives arrived

/-- A frame in which every receiver finds the message to a copy. -/
def HoldsService (data : Frame) (sm : ServiceModule) : Prop :=
  ∀ receiver, ∃ arrived, loadServiceModule receiver data = some arrived ∧ sm.Arrives arrived

/-- The frames that carry a message of the broker. -/
inductive Carries (host : ByteOrder) : Output → WireOutput → Prop
  | router {clientId : ClientId} {response : ResponseModule} {message : MultiMsg}
      (hid : message.idFrame = identityFrame host clientId)
      (hdata : HoldsResponse message.dataFrame response) :
      Carries host (.router clientId response) (.router message)
  | dealer {index : ℕ} {envelope : ClientId} {sm : ServiceModule} {message : MultiMsg}
      (hid : message.idFrame = identityFrame host envelope)
      (hdata : HoldsService message.dataFrame sm) :
      Carries host (.dealer index envelope sm) (.dealer index message)
  | reg {port : UInt16} {message : MultiMsg}
      (hdata : ∀ receiver, loadPort receiver message.dataFrame = some port) :
      Carries host (.reg port) (.reg message)

/-- The message a call is about, as the host reads it. -/
def WireEvent.read (host : ByteOrder) : WireEvent → Option Event
  | .registration message now =>
      (loadRegistrationModule host message.dataFrame).map fun rm => .registration rm now
  | .request bufferIn _ _ now later =>
      (loadRequestModule host bufferIn.dataFrame).map fun request =>
        .request (readClientId host bufferIn.idFrame) request now later
  | .response dealerIndex bufferIn _ =>
      (loadServerReply host bufferIn.dataFrame).map fun serverReply =>
        .response dealerIndex serverReply (readClientId host bufferIn.idFrame)
  | .heartbeat i _ now later => some (.heartbeat i now later)
  | .sweep _ now => some (.sweep now)

/-- The identity frames are as a `ROUTER` makes them. -/
def WireEvent.Framed : WireEvent → Prop
  | .registration _ _ => True
  | .request bufferIn _ _ _ _ => bufferIn.Framed
  | .response _ bufferIn _ => bufferIn.Framed
  | .heartbeat _ _ _ _ => True
  | .sweep _ _ => True

/-- A call on frames and the call on the messages they hold. -/
structure WireMoment.Reads (host : ByteOrder) (moment : Moment) (wireMoment : WireMoment) :
    Prop where
  event_eq : wireMoment.event.read host = some moment.event
  framed : wireMoment.event.Framed
  connected_eq : ∀ clientId,
    moment.connected clientId = wireMoment.connected (identityFrame host clientId)

/-! ## Sending -/

section Sending

variable {connected : ClientId → Bool} {connectedFrame : Frame → Bool}

theorem sendRouter_matches
    (hconnected : ∀ clientId, connected clientId = connectedFrame (identityFrame host clientId))
    {clientId : ClientId} {response : ResponseModule} {message : MultiMsg}
    {scratch : Vector UInt8 responseModuleSize}
    (hid : message.idFrame = identityFrame host clientId)
    (hdata : message.dataFrame = storeResponseModule host scratch response) :
    Outcome.Matches (Carries host) (Broker.sendRouter connected clientId response)
      (Broker.sendRouterMsg connectedFrame message) := by
  unfold Broker.sendRouter Broker.sendRouterMsg
  rw [hid, ← hconnected]
  split
  · refine Outcome.matches_tell (.router hid fun receiver => ?_)
    rw [hdata]
    exact load_storeResponseModule host receiver scratch response
  · exact Outcome.matches_fail _

theorem sendCopies_matches (b : Broker nmr) (index : ℕ) {envelope : ClientId} {sm : ServiceModule}
    {message : MultiMsg} {scratch : Vector UInt8 serviceModuleSize}
    (hid : message.idFrame = identityFrame host envelope)
    (hdata : message.dataFrame = storeServiceModule host scratch sm) (n : ℕ) :
    Outcome.Matches (Carries host) (b.sendCopies index envelope sm n)
      (b.sendCopiesMsg index message n) := by
  induction n with
  | zero => exact Outcome.matches_pure ()
  | succ n ih =>
      refine Outcome.Matches.bind ?_ fun _ _ => ih
      unfold Broker.sendDealer Broker.sendDealerMsg
      split
      · refine Outcome.matches_tell (.dealer hid fun receiver => ?_)
        rw [hdata]
        exact load_storeServiceModule host receiver scratch sm
      · exact Outcome.matches_fail _

end Sending

/-! ## The database -/

/-- The database sends nothing on either side. -/
theorem onDatabase_matches {m : Effect α} (h : m.sent = []) :
    Outcome.Matches (Carries host) m (onDatabase m) :=
  Outcome.matches_of_silent h

namespace ServiceDatabase

variable (db : ServiceDatabase nmr) (service : ServiceType) (c : ClientId)

theorem lookup_sent : (db.lookup service).sent = [] := by
  unfold lookup
  split <;> rfl

theorem getRequestId_sent : (db.getRequestId service).sent = [] :=
  Outcome.bind_sent_eq_nil (db.lookup_sent service) fun _ => rfl

theorem getReliableCopies_sent : (db.getReliableCopies service).sent = [] :=
  Outcome.bind_sent_eq_nil (db.lookup_sent service) fun _ => rfl

theorem getPingId_sent : (db.getPingId service).sent = [] :=
  Outcome.bind_sent_eq_nil (db.lookup_sent service) fun _ => rfl

theorem getPendingRequests_sent : (db.getPendingRequests service).sent = [] :=
  Outcome.bind_sent_eq_nil (db.lookup_sent service) fun _ => rfl

theorem pushRequest_sent (now : Timespec) : (db.pushRequest c service now).sent = [] :=
  Outcome.bind_sent_eq_nil (db.lookup_sent service) fun _ => rfl

theorem deleteRequest_sent : (db.deleteRequest service c).sent = [] :=
  Outcome.bind_sent_eq_nil (db.lookup_sent service) fun _ => rfl

theorem pushResult_sent (reply : ServerReply) : (db.pushResult reply c).sent = [] :=
  Outcome.bind_sent_eq_nil (db.lookup_sent reply.service) fun _ => rfl

theorem getResult_sent : (db.getResult service c).sent = [] := by
  refine Outcome.bind_sent_eq_nil (db.lookup_sent service) fun record => ?_
  split <;> rfl

theorem registerPong_sent (idCopy : UInt8) : (db.registerPong idCopy service).sent = [] := by
  refine Outcome.bind_sent_eq_nil (db.lookup_sent service) fun record => ?_
  split <;> rfl

theorem checkPong_sent : (db.checkPong service).sent = [] := by
  unfold checkPong
  split <;> rfl

end ServiceDatabase

/-! ## The handlers -/

namespace Broker

variable {b : Broker nmr} {c : ClientId} {connected : ClientId → Bool}
  {connectedFrame : Frame → Bool} {bufferIn : MultiMsg}
  {response : Vector UInt8 responseModuleSize} {sm : Vector UInt8 serviceModuleSize}
  {now later : Timespec}

theorem getRequest_matches
    (hconnected : ∀ clientId, connected clientId = connectedFrame (identityFrame host clientId))
    (hid : bufferIn.idFrame = identityFrame host c) {request : RequestModule}
    (hread : loadRequestModule host bufferIn.dataFrame = some request) :
    Outcome.Matches (Carries host) (getRequest connected b c request now later)
      (getRequestMsg host connectedFrame b bufferIn response sm now later) := by
  unfold getRequest getRequestMsg
  rw [hread, hid, readClientId_identityFrame]
  dsimp only
  cases b.db.findRegistration request.service with
  | none =>
      refine Outcome.Matches.bind ?_ fun _ _ => Outcome.matches_pure b
      exact sendRouter_matches hconnected rfl rfl
  | some ret =>
      refine (onDatabase_matches (ServiceDatabase.getRequestId_sent ..)).bind fun counted _ => ?_
      refine (onDatabase_matches (ServiceDatabase.getReliableCopies_sent ..)).bind
        fun copies _ => ?_
      refine (sendCopies_matches b _ rfl rfl _).bind fun _ _ => ?_
      refine (onDatabase_matches (ServiceDatabase.pushRequest_sent ..)).bind fun db _ => ?_
      exact onDatabase_matches (updateTimeout_sent ..)

theorem getRegistration_matches {message : MultiMsg} {rm : RegistrationModule}
    (hread : loadRegistrationModule host message.dataFrame = some rm) :
    Outcome.Matches (Carries host) (b.getRegistration rm now)
      (b.getRegistrationMsg host message now) := by
  unfold getRegistration getRegistrationMsg
  rw [hread]
  dsimp only
  have hsilent : ∀ m : Broker nmr, (if (b.db.pushRegistration rm b.availableDealerPort).ready ∧
      rm.service ∉ b.availableServices then
        m.makeAvailable rm.service (b.db.pushRegistration rm b.availableDealerPort).ret now
      else pure m).sent = [] := by
    intro m
    split
    · exact makeAvailable_sent ..
    · rfl
  refine (onDatabase_matches (hsilent _)).bind fun made _ => ?_
  refine Outcome.Matches.bind (Outcome.matches_tell (.reg ?_)) fun _ _ => Outcome.matches_pure made
  exact fun receiver => load_storePort host receiver _

theorem getResponse_matches
    (hconnected : ∀ clientId, connected clientId = connectedFrame (identityFrame host clientId))
    (hid : bufferIn.idFrame = identityFrame host c) {serverReply : ServerReply}
    (hread : loadServerReply host bufferIn.dataFrame = some serverReply) (dealerIndex : ℕ) :
    Outcome.Matches (Carries host) (getResponse connected b dealerIndex serverReply c)
      (getResponseMsg host connectedFrame b bufferIn response) := by
  unfold getResponse getResponseMsg
  rw [hread, hid, readClientId_identityFrame]
  show Outcome.Matches _ _ (if _ then _ else _)
  split
  · refine (onDatabase_matches (ServiceDatabase.registerPong_sent ..)).bind fun db _ => ?_
    exact Outcome.matches_pure _
  split
  · exact Outcome.matches_pure b
  refine (onDatabase_matches (ServiceDatabase.pushResult_sent ..)).bind fun ⟨numCopies, db⟩ _ => ?_
  dsimp only
  split
  · refine (onDatabase_matches (ServiceDatabase.getResult_sent ..)).bind fun values _ => ?_
    refine (onDatabase_matches (vote_sent ..)).bind fun ⟨ret, result⟩ _ => ?_
    dsimp only
    split
    · refine (sendRouter_matches hconnected rfl rfl).bind
        fun _ _ => ?_
      refine (onDatabase_matches (ServiceDatabase.deleteRequest_sent ..)).bind fun db _ => ?_
      exact Outcome.matches_pure _
    · split
      · refine (sendRouter_matches hconnected rfl rfl).bind
          fun _ _ => ?_
        refine (onDatabase_matches (ServiceDatabase.deleteRequest_sent ..)).bind fun db _ => ?_
        exact Outcome.matches_pure _
      · exact Outcome.matches_pure _
  · exact Outcome.matches_pure _

theorem pingServer_matches (i : UInt8) (service : ServiceType) :
    Outcome.Matches (Carries host) (b.pingServer i service)
      (b.pingServerMsg host sm i service) := by
  unfold pingServer pingServerMsg
  refine (onDatabase_matches (ServiceDatabase.getPingId_sent ..)).bind fun seqId _ => ?_
  cases b.availableServices[i.toNat]? with
  | none => exact Outcome.matches_fail _
  | some counted =>
      refine (onDatabase_matches (ServiceDatabase.getReliableCopies_sent ..)).bind
        fun copies _ => ?_
      exact sendCopies_matches _ _ (identityFrame_pingEnvelope host).symm rfl _

theorem heartbeat_matches (i : ℕ) :
    Outcome.Matches (Carries host) (b.heartbeat i now later)
      (b.heartbeatMsg host sm i now later) := by
  unfold heartbeat heartbeatMsg
  cases b.timeout[i]? with
  | none => exact Outcome.matches_pure b
  | some deadline =>
      dsimp only
      split
      · cases b.availableServices[i]? with
        | none => exact Outcome.matches_fail _
        | some service =>
            refine (onDatabase_matches (ServiceDatabase.checkPong_sent ..)).bind fun db _ => ?_
            refine Outcome.Matches.bind (pingServer_matches _ _) fun _ _ => ?_
            exact onDatabase_matches (updateTimeout_sent ..)
      · exact Outcome.matches_pure b

theorem sweepRecord_matches
    (hconnected : ∀ clientId, connected clientId = connectedFrame (identityFrame host clientId))
    (i : ℕ) (state : Option Int32 × ServiceDatabase nmr) (pending : RequestRecord) :
    Outcome.Matches (Carries host) (sweepRecord connected now i state pending)
      (sweepRecordMsg host connectedFrame response now i state pending) := by
  unfold sweepRecord sweepRecordMsg
  split
  · refine (onDatabase_matches (vote_sent ..)).bind fun ⟨ret, result⟩ _ => ?_
    refine (sendRouter_matches hconnected rfl rfl).bind
      fun _ _ => ?_
    refine (onDatabase_matches (ServiceDatabase.deleteRequest_sent ..)).bind fun db _ => ?_
    exact Outcome.matches_pure _
  · exact Outcome.matches_pure state

theorem checkPendingRequests_matches
    (hconnected : ∀ clientId, connected clientId = connectedFrame (identityFrame host clientId)) :
    Outcome.Matches (Carries host) (checkPendingRequests connected b now)
      (checkPendingRequestsMsg host connectedFrame b response now) := by
  refine Outcome.Matches.bind ?_ fun swept _ => Outcome.matches_pure _
  refine Outcome.matches_foldlM (List.forall₂_same.mpr fun _ _ => rfl) ?_ _
  rintro state entry _ rfl
  refine (onDatabase_matches (ServiceDatabase.getPendingRequests_sent ..)).bind fun records _ => ?_
  refine Outcome.matches_foldlM (List.forall₂_same.mpr fun _ _ => rfl) ?_ _
  rintro state record _ rfl
  exact sweepRecord_matches hconnected _ _ _

/-- **A call on frames is the call on the messages they hold.** -/
theorem handle_matches {moment : Moment} {wireMoment : WireMoment}
    (hreads : WireMoment.Reads host moment wireMoment) :
    Outcome.Matches (Carries host) (b.handle moment.connected moment.event)
      (b.handleMsg host wireMoment.connected wireMoment.event) := by
  obtain ⟨hevent, hframed, hconnected⟩ := hreads
  obtain ⟨connected, event⟩ := moment
  obtain ⟨connectedFrame, wireEvent⟩ := wireMoment
  cases wireEvent with
  | registration message now =>
      obtain ⟨rm, hread, rfl⟩ := Option.map_eq_some_iff.mp hevent
      exact getRegistration_matches hread
  | request bufferIn response sm now later =>
      obtain ⟨request, hread, rfl⟩ := Option.map_eq_some_iff.mp hevent
      exact getRequest_matches hconnected (identityFrame_readClientId host hframed).symm hread
  | response dealerIndex bufferIn response =>
      obtain ⟨serverReply, hread, rfl⟩ := Option.map_eq_some_iff.mp hevent
      exact getResponse_matches hconnected (identityFrame_readClientId host hframed).symm hread
        dealerIndex
  | heartbeat i sm now later =>
      obtain rfl := Option.some.inj hevent
      exact heartbeat_matches i
  | sweep response now =>
      obtain rfl := Option.some.inj hevent
      exact checkPendingRequests_matches hconnected

/-- **A run on frames is the run on the messages they hold**: the same states and the same faults,
and frames in which any receiver finds what the other run sends. -/
theorem runMsg_matches (b : Broker nmr) {moments : List Moment} {wireMoments : List WireMoment}
    (hreads : List.Forall₂ (WireMoment.Reads host) moments wireMoments) :
    Outcome.Matches (Carries host) (b.run moments) (b.runMsg host wireMoments) := by
  refine Outcome.matches_foldlM hreads ?_ b
  intro b moment wireMoment hreads
  exact handle_matches hreads

end Broker

/-! ## What the peers send -/

section Peers

variable (sender : ByteOrder) (connectedFrame : Frame → Bool) (emptyFrame : Frame)

/-- The calls of a host to which the identities `connectedFrame` are connected. -/
def Moment.at (host : ByteOrder) (connectedFrame : Frame → Bool) (event : Event) : Moment :=
  ⟨fun clientId => connectedFrame (identityFrame host clientId), event⟩

theorem reads_registration (scratch : Vector UInt8 registrationModuleSize) (service : ServiceType)
    (idFrame : Frame) (now : Timespec) :
    WireMoment.Reads host (Moment.at host connectedFrame (.registration ⟨"pippo", service⟩ now))
      ⟨connectedFrame, .registration
        ⟨idFrame, emptyFrame, storeRegistrationModule sender scratch service⟩ now⟩ where
  event_eq := by
    dsimp only [WireEvent.read]
    rw [load_storeRegistrationModule]
    rfl
  framed := trivial
  connected_eq := fun _ => rfl

theorem reads_request {bufferIn : MultiMsg} (hframed : bufferIn.Framed)
    {scratch : Vector UInt8 requestModuleSize} {request : RequestModule}
    (hdata : bufferIn.dataFrame = storeRequestModule sender scratch request)
    (response : Vector UInt8 responseModuleSize) (sm : Vector UInt8 serviceModuleSize)
    (now later : Timespec) :
    WireMoment.Reads host
      (Moment.at host connectedFrame
        (.request (readClientId host bufferIn.idFrame) request now later))
      ⟨connectedFrame, .request bufferIn response sm now later⟩ where
  event_eq := by
    dsimp only [WireEvent.read]
    rw [hdata, load_storeRequestModule]
    rfl
  framed := hframed
  connected_eq := fun _ => rfl

/-- What a copy leaves out of its reply the broker reads as something. -/
theorem exists_reads_response {bufferIn : MultiMsg} (hframed : bufferIn.Framed)
    {scratch : Vector UInt8 serverReplySize} {id : UInt8} {service : ServiceType}
    {valElab : Int32} {reaction : Reaction}
    (hdata : bufferIn.dataFrame = storeServerReply sender scratch id service valElab reaction)
    (dealerIndex : ℕ) (response : Vector UInt8 responseModuleSize) :
    ∃ serverReply, ServerReply.Tells id service valElab reaction serverReply ∧
      WireMoment.Reads host
        (Moment.at host connectedFrame
          (.response dealerIndex serverReply (readClientId host bufferIn.idFrame)))
        ⟨connectedFrame, .response dealerIndex bufferIn response⟩ := by
  obtain ⟨serverReply, hload, htells⟩ :=
    load_storeServerReply sender host scratch id service valElab reaction
  refine ⟨serverReply, htells, ?_, hframed, fun _ => rfl⟩
  dsimp only [WireEvent.read]
  rw [hdata, hload]
  rfl

end Peers

namespace Broker

/-- The request of a client, out of memory that is full of `170`. -/
def mixedRequest : MultiMsg :=
  ⟨[0, 1, 2, 3, 4], [], storeRequestModule .little (Vector.replicate _ 170)
    ⟨2, Vector.replicate paramSize 0⟩⟩

/-- Two copies register with a broker on another kind of host, and a client makes its request. -/
def mixedMoments : List Moment :=
  [.at .big (fun _ => true) (.registration ⟨"pippo", 2⟩ ⟨0, 0⟩),
    .at .big (fun _ => true) (.registration ⟨"pippo", 2⟩ ⟨0, 0⟩),
    .at .big (fun _ => true) (.request (readClientId .big mixedRequest.idFrame)
      ⟨2, Vector.replicate paramSize 0⟩ ⟨0, 0⟩ ⟨0, 0⟩)]

/-- The frames they send. -/
def mixedFrames : List WireMoment :=
  [⟨fun _ => true, .registration
      ⟨[0, 9, 9, 9, 1], [], storeRegistrationModule .little (Vector.replicate _ 170) 2⟩ ⟨0, 0⟩⟩,
    ⟨fun _ => true, .registration
      ⟨[0, 9, 9, 9, 2], [], storeRegistrationModule .little (Vector.replicate _ 170) 2⟩ ⟨0, 0⟩⟩,
    ⟨fun _ => true, .request mixedRequest (Vector.replicate _ 170) (Vector.replicate _ 170)
      ⟨0, 0⟩ ⟨0, 0⟩⟩]

theorem runMsg_matches_mixedFrames :
    Outcome.Matches (Carries .big) ((init 5559 5555 : Broker 2).run mixedMoments)
      ((init 5559 5555 : Broker 2).runMsg .big mixedFrames) :=
  runMsg_matches _
    (.cons (reads_registration .little _ _ _ _ _ _)
      (.cons (reads_registration .little _ _ _ _ _ _)
        (.cons (reads_request .little _ ⟨[1, 2, 3, 4], rfl, rfl⟩ rfl _ _ _ _) .nil)))

end Broker

end ReliableService
