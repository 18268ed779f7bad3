import ReliableService.Model.ServiceDatabase

/-!
# The broker

`broker_class.cpp`: the voter, the handlers of one poll wake-up and the sweep over
the pending requests.  A handler takes the message it receives and the clock readings
it makes, and sends through an `Effect`.

What the handlers rely on outside the repository is in two places.  `connected` tells
which clients a `ROUTER` send can still reach: with `ZMQ_ROUTER_MANDATORY` set, a send
to any other identity throws.  `addDealer` binds, and a bind throws on a port this
broker has already bound (port `0` becomes an IPC address and never clashes).

`step` polls and calls the handlers in a fixed order.  An `Event` is one such call, so
that every schedule of `step` is a list of events.
-/

namespace ReliableService

/-- What an entry of the poll set watches. -/
inductive PollItem
  | router
  | reg
  | hc
  | dealer (port : UInt16)
  deriving DecidableEq, Repr

/-- `RSF_Broker`.  A dealer socket is given by the port it is bound on. -/
structure Broker (nmr : UInt8) where
  portRouter : UInt16
  portReg : UInt16
  availableDealerPort : UInt16
  items : List PollItem
  dealer : List UInt16
  db : ServiceDatabase nmr
  availableServices : List ServiceType
  timeout : List Timespec

/-! ## The voter -/

/-- The first loop of `vote`: how often each value occurs, in a `uint8_t`. -/
def voteCount (values : List Int32) : List UInt8 :=
  values.map fun value => UInt8.ofNat (values.count value)

/-- The second loop of `vote`: the first index of a largest count. -/
def voteMax (count : List UInt8) : ℕ :=
  (List.range count.length).foldl
    (fun max i => if count.getD max 0 < count.getD i 0 then i else max) 0

/-- `vote`, returning the index and what it leaves in the by-reference `result`.  With
256 values or more the `uint8_t` index of the first loop never reaches the size. -/
def vote (nmr : UInt8) (values : List Int32) (result : Option Int32) :
    Effect (Int8 × Option Int32) :=
  if 256 ≤ values.length then Outcome.fail .endless
  else
    let count := voteCount values
    let max := voteMax count
    match count[max]?, values[max]? with
    | some c, some value =>
        if nmr.toNat / 2 < c.toNat then pure ((UInt8.ofNat max).toInt8, some value)
        else pure (-1, result)
    | _, _ => pure (-1, result)

namespace Broker

variable {nmr : UInt8}

/-- `RSF_Broker::RSF_Broker` -/
def init (portRouter portReg : UInt16) : Broker nmr where
  portRouter := portRouter
  portReg := portReg
  availableDealerPort := dealerStartPort
  items := [.router, .reg, .hc]
  dealer := []
  db := ServiceDatabase.init
  availableServices := []
  timeout := []

/-! ## Sending -/

/-- `send_multi_msg(router, …)` -/
def sendRouter (connected : ClientId → Bool) (clientId : ClientId) (response : ResponseModule) :
    Effect Unit :=
  if connected clientId then Outcome.tell (.router clientId response)
  else Outcome.fail .hostUnreachable

/-- `send_multi_msg(dealer[index], …)` -/
def sendDealer (b : Broker nmr) (index : ℕ) (envelope : ClientId) (sm : ServiceModule) :
    Effect Unit :=
  if index < b.dealer.length then Outcome.tell (.dealer index envelope sm)
  else Outcome.fail .outOfRange

/-- The loops that send one message `num_copies_reliable` times. -/
def sendCopies (b : Broker nmr) (index : ℕ) (envelope : ClientId) (sm : ServiceModule) :
    ℕ → Effect Unit
  | 0 => pure ()
  | n + 1 => do
      b.sendDealer index envelope sm
      b.sendCopies index envelope sm n

/-! ## The handlers -/

/-- `add_dealer` -/
def addDealer (b : Broker nmr) (dealerPort : UInt16) : Effect (Broker nmr) :=
  if dealerPort ≠ 0 ∧ dealerPort ∈ b.portRouter :: b.portReg :: brokerPongPort :: b.dealer then
    Outcome.fail .addressInUse
  else
    pure { b with
      dealer := b.dealer ++ [dealerPort]
      items := b.items ++ [.dealer dealerPort] }

/-- `update_timeout`: the index runs to the end when the service is not available. -/
def updateTimeout (b : Broker nmr) (service : ServiceType) (now : Timespec) :
    Effect (Broker nmr) :=
  let i := b.availableServices.idxOf service
  if i < b.timeout.length then
    pure { b with timeout := b.timeout.set i (timeAddMs now heartbeatInterval) }
  else Outcome.fail .outOfRange

/-- `get_request`; `now` and `later` are the clock readings of `push_request` and
`update_timeout`. -/
def getRequest (connected : ClientId → Bool) (b : Broker nmr) (clientId : ClientId)
    (request : RequestModule) (now later : Timespec) : Effect (Broker nmr) :=
  match b.db.findRegistration request.service with
  | none => do
      -- service not available
      sendRouter connected clientId ⟨.serviceNotAvailable, none⟩
      pure b
  | some ret => do
      -- service available
      let (seqId, db) ← b.db.getRequestId request.service
      let numCopiesReliable ← db.getReliableCopies request.service
      b.sendCopies ret.toNat clientId ⟨false, seqId, some request.parameters⟩
        numCopiesReliable.toNat
      let db ← db.pushRequest clientId request.service now
      updateTimeout { b with db := db } request.service later

/-- The branch of `get_registration` that makes a service available. -/
def makeAvailable (b : Broker nmr) (service : ServiceType) (port : UInt16) (now : Timespec) :
    Effect (Broker nmr) := do
  let b ← { b with availableServices := b.availableServices ++ [service] }.addDealer port
  pure { b with timeout := b.timeout ++ [timeAddMs now heartbeatInterval] }

/-- `get_registration` -/
def getRegistration (b : Broker nmr) (rm : RegistrationModule) (now : Timespec) :
    Effect (Broker nmr) := do
  let reg := b.db.pushRegistration rm b.availableDealerPort
  let b := { b with db := reg.db, availableDealerPort := reg.dealerSocket }
  let b ← (if reg.ready ∧ rm.service ∉ b.availableServices then
      b.makeAvailable rm.service reg.ret now
    else pure b)
  Outcome.tell (.reg reg.ret)
  pure b

/-- `get_response`.  The index of the dealer socket the reply came through is used to
receive it and for nothing else. -/
def getResponse (connected : ClientId → Bool) (b : Broker nmr) (_dealerIndex : ℕ)
    (serverReply : ServerReply) (clientId : ClientId) : Effect (Broker nmr) :=
  if serverReply.heartbeat then do
    let db ← b.db.registerPong serverReply.id serverReply.service
    pure { b with db := db }
  else if serverReply.duplicated then pure b
  else do
    let (numCopies, db) ← b.db.pushResult serverReply clientId
    if (nmr.toNat / 2 : ℕ) < numCopies then do
      let values ← db.getResult serverReply.service clientId
      let (ret, result) ← vote nmr values none
      if 0 ≤ ret then do
        sendRouter connected clientId ⟨.serviceAvailable, result⟩
        let db ← db.deleteRequest serverReply.service clientId
        pure { b with db := db }
      else if numCopies = nmr.toNat then do
        sendRouter connected clientId ⟨.serviceNotReliable, result⟩
        let db ← db.deleteRequest serverReply.service clientId
        pure { b with db := db }
      else pure { b with db := db }
    else pure { b with db := db }

/-- `ping_server`; the position arrives in a `uint8_t`. -/
def pingServer (b : Broker nmr) (i : UInt8) (service : ServiceType) : Effect Unit := do
  let seqId ← b.db.getPingId service
  match b.availableServices[i.toNat]? with
  | none => Outcome.fail .outOfRange
  | some counted => do
      let numCopiesReliable ← b.db.getReliableCopies counted
      b.sendCopies i.toNat pingEnvelope ⟨true, seqId, none⟩ numCopiesReliable.toNat

/-- The body of the heartbeat loop of `step` for position `i`; `now` is the clock of
`step`, `later` that of `update_timeout`. -/
def heartbeat (b : Broker nmr) (i : ℕ) (now later : Timespec) : Effect (Broker nmr) :=
  match b.timeout[i]? with
  | none => pure b
  | some deadline =>
      if timeCmp now deadline = 1 then
        match b.availableServices[i]? with
        | none => Outcome.fail .outOfRange
        | some service => do
            let db ← b.db.checkPong service
            let b := { b with db := db }
            b.pingServer (UInt8.ofNat i) service
            b.updateTimeout service later
      else pure b

/-- The body of the inner loop of `check_pending_requests`, for position `i` and one
record of the copied list; the state is the local `result` and the database. -/
def sweepRecord (connected : ClientId → Bool) (now : Timespec) (i : ℕ)
    (state : Option Int32 × ServiceDatabase nmr) (pending : RequestRecord) :
    Effect (Option Int32 × ServiceDatabase nmr) :=
  if timeCmp now pending.timeout = 1 then do
    let (ret, result) ← vote nmr pending.results state.1
    sendRouter connected pending.clientId
      ⟨if 0 ≤ ret then .serviceAvailable else .serviceNotReliable, result⟩
    -- the position, not the service, is cast to a service type
    let db ← state.2.deleteRequest (UInt32.ofNat i) pending.clientId
    pure (result, db)
  else pure state

/-- The body of the outer loop of `check_pending_requests`. -/
def sweepService (connected : ClientId → Bool) (now : Timespec)
    (state : Option Int32 × ServiceDatabase nmr) (entry : ServiceType × ℕ) :
    Effect (Option Int32 × ServiceDatabase nmr) := do
  let pendingRequests ← state.2.getPendingRequests entry.1
  pendingRequests.foldlM (sweepRecord connected now entry.2) state

/-- `check_pending_requests`, at time `now`. -/
def checkPendingRequests (connected : ClientId → Bool) (b : Broker nmr) (now : Timespec) :
    Effect (Broker nmr) := do
  let (_, db) ← b.availableServices.zipIdx.foldlM (sweepService connected now) (none, b.db)
  pure { b with db := db }

end Broker

/-! ## Events and runs -/

/-- One call that `step` makes, with the message it receives and its clock readings. -/
inductive Event
  | registration (rm : RegistrationModule) (now : Timespec)
  | request (clientId : ClientId) (request : RequestModule) (now later : Timespec)
  | response (dealerIndex : ℕ) (serverReply : ServerReply) (clientId : ClientId)
  | heartbeat (i : ℕ) (now later : Timespec)
  | sweep (now : Timespec)

namespace Broker

variable {nmr : UInt8}

/-- The handler `step` calls for an event. -/
def handle (connected : ClientId → Bool) (b : Broker nmr) : Event → Effect (Broker nmr)
  | .registration rm now => b.getRegistration rm now
  | .request clientId request now later => b.getRequest connected clientId request now later
  | .response dealerIndex serverReply clientId =>
      b.getResponse connected dealerIndex serverReply clientId
  | .heartbeat i now later => b.heartbeat i now later
  | .sweep now => b.checkPendingRequests connected now

/-- No client has gone away. -/
def everyone : ClientId → Bool := fun _ => true

end Broker

end ReliableService
