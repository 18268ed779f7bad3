import ReliableService.Lib.ByteOrder
import ReliableService.Lib.Channels
import ReliableService.Model.Server
import ReliableService.Voting.Loops

/-!
# Messages as bytes

The structures of `communication.hpp` and `rsf_api.hpp` as they travel: the sender fills one in
its memory and copies it into a frame, and the receiver reads the frame as if it were the
structure in its own memory.  The hosts may differ in their `ByteOrder`; the layout is the usual
one with `int` aligned to four bytes, the same for all.  A structure starts out with whatever its
memory holds (`scratch`).  A receiver never asks how long a frame is, so a frame that is too short
is read past its end (`none`).

The second half is the broker again, as it handles frames.  What it does to its database is
`Model/Broker.lean`; what is new are the frames, the envelope that is passed on unread, and the
identity that is made up for a ping and built again for a record that expires.
-/

namespace ReliableService

/-- A frame of a message. -/
abbrev Frame := List UInt8

/-! ## Numbers -/

/-- `htonl` -/
def htonl (host : ByteOrder) (hostlong : UInt32) : UInt32 :=
  UInt32.ofNat (host.swap 4 hostlong.toNat)

/-- `ntohl` -/
def ntohl (host : ByteOrder) (netlong : UInt32) : UInt32 :=
  UInt32.ofNat (host.swap 4 netlong.toNat)

/-- `htons` -/
def htons (host : ByteOrder) (hostshort : UInt16) : UInt16 :=
  UInt16.ofNat (host.swap 2 hostshort.toNat)

/-- `ntohs` -/
def ntohs (host : ByteOrder) (netshort : UInt16) : UInt16 :=
  UInt16.ofNat (host.swap 2 netshort.toNat)

/-- A `uint32_t`, an `int32_t` or an enumeration in memory. -/
def storeLong (host : ByteOrder) (n : UInt32) : List UInt8 := host.store 4 n.toNat

def loadLong (host : ByteOrder) (bytes : List UInt8) : UInt32 := UInt32.ofNat (host.load bytes)

/-- A `uint16_t` in memory. -/
def storeShort (host : ByteOrder) (n : UInt16) : List UInt8 := host.store 2 n.toNat

def loadShort (host : ByteOrder) (bytes : List UInt8) : UInt16 := UInt16.ofNat (host.load bytes)

/-- A `bool` in memory. -/
def storeBool (b : Bool) : List UInt8 := [if b then 1 else 0]

def loadBool (bytes : List UInt8) : Bool := bytes ≠ [0]

/-- A `char[PARAM_SIZE]` in memory. -/
def loadParameters (bytes : List UInt8) : Parameters := Vector.ofFn fun i => bytes.getD i 0

/-! ## From a client to the broker, and back -/

/-- `sizeof(request_module)` -/
def requestModuleSize : ℕ := 104

/-- The request of `request_service`. -/
def storeRequestModule (host : ByteOrder) (scratch : Vector UInt8 requestModuleSize)
    (rm : RequestModule) : Frame :=
  let memory := poke scratch.toList 4 rm.parameters.toList
  poke memory 0 (storeLong host (htonl host rm.service))

/-- The request as `get_request` reads it. -/
def loadRequestModule (host : ByteOrder) (data : Frame) : Option RequestModule :=
  if data.length < requestModuleSize then none
  else some {
    service := ntohl host (loadLong host (peek data 0 4))
    parameters := loadParameters (peek data 4 paramSize) }

/-- `service_status_t` -/
def ServiceStatus.number : ServiceStatus → UInt32
  | .serviceAvailable => 0
  | .serviceNotAvailable => 1
  | .serviceNotReliable => 2

/-- What `request_service` takes a status for: it asks for two numbers, and any other one is
success. -/
def ServiceStatus.ofNumber (n : UInt32) : ServiceStatus :=
  if n = ServiceStatus.serviceNotReliable.number then .serviceNotReliable
  else if n = ServiceStatus.serviceNotAvailable.number then .serviceNotAvailable
  else .serviceAvailable

/-- `sizeof(response_module)` -/
def responseModuleSize : ℕ := 8

/-- The response of the broker.  A result nobody has computed is whatever is there. -/
def storeResponseModule (host : ByteOrder) (scratch : Vector UInt8 responseModuleSize)
    (response : ResponseModule) : Frame :=
  let memory := poke scratch.toList 0 (storeLong host (htonl host response.serviceStatus.number))
  match response.result with
  | none => memory
  | some result => poke memory 4 (storeLong host (htonl host result.toUInt32))

/-- The response as `request_service` reads it. -/
def loadResponseModule (host : ByteOrder) (data : Frame) : Option ResponseModule :=
  if data.length < responseModuleSize then none
  else some {
    serviceStatus := .ofNumber (ntohl host (loadLong host (peek data 0 4)))
    result := some (ntohl host (loadLong host (peek data 4 4))).toInt32 }

/-! ## From the broker to a copy, and back -/

/-- `sizeof(service_module)` -/
def serviceModuleSize : ℕ := 108

/-- The message of `get_request` or `ping_server`.  A ping has no parameters. -/
def storeServiceModule (host : ByteOrder) (scratch : Vector UInt8 serviceModuleSize)
    (sm : ServiceModule) : Frame :=
  let memory := poke scratch.toList 0 (storeBool sm.heartbeat)
  let memory := poke memory 4 (storeLong host (htonl host sm.seqId))
  match sm.parameters with
  | none => memory
  | some parameters => poke memory 8 parameters.toList

/-- The message as `receive_request` reads it. -/
def loadServiceModule (host : ByteOrder) (data : Frame) : Option ServiceModule :=
  if data.length < serviceModuleSize then none
  else some {
    heartbeat := loadBool (peek data 0 1)
    seqId := ntohl host (loadLong host (peek data 4 4))
    parameters := some (loadParameters (peek data 8 paramSize)) }

/-- `sizeof(server_reply_t)` -/
def serverReplySize : ℕ := 16

/-- The reply of a copy: `pong_broker`, the branch of `step` for a duplicate, and `task`.  Each
of them leaves out what it has no value for. -/
def storeServerReply (host : ByteOrder) (scratch : Vector UInt8 serverReplySize) (id : UInt8)
    (service : ServiceType) (valElab : Int32) (reaction : Reaction) : Frame :=
  let memory := poke scratch.toList 12 [id]
  let memory := poke memory 8 (storeLong host (htonl host service))
  match reaction with
  | .pong => poke memory 0 (storeBool true)
  | .duplicated => poke (poke memory 0 (storeBool false)) 1 (storeBool true)
  | .answer =>
      let memory := poke (poke memory 0 (storeBool false)) 1 (storeBool false)
      poke memory 4 (storeLong host (htonl host valElab.toUInt32))

/-- The reply as `get_response` reads it. -/
def loadServerReply (host : ByteOrder) (data : Frame) : Option ServerReply :=
  if data.length < serverReplySize then none
  else some {
    heartbeat := loadBool (peek data 0 1)
    duplicated := loadBool (peek data 1 1)
    result := (ntohl host (loadLong host (peek data 4 4))).toInt32
    service := ntohl host (loadLong host (peek data 8 4))
    id := (peek data 12 1).headD 0 }

/-! ## Registrations -/

/-- `MAX_LENGTH_SIGNATURE` -/
def maxLengthSignature : ℕ := 32

/-- `sizeof(registration_module)` -/
def registrationModuleSize : ℕ := 36

/-- `"pippo"` -/
def signatureText : List UInt8 := [112, 105, 112, 112, 111]

/-- The request of `registration` and `register_service`: the signature is cleared first, and the
structure has no other fields. -/
def storeRegistrationModule (host : ByteOrder)
    (scratch : Vector UInt8 registrationModuleSize) (service : ServiceType) : Frame :=
  let signature := poke (List.replicate maxLengthSignature 0) 0 (signatureText ++ [0])
  poke (poke scratch.toList 0 signature) maxLengthSignature (storeLong host (htonl host service))

/-- The registration as `get_registration` reads it.  The signature ends at its terminator;
without one it would go on behind the field. -/
def loadRegistrationModule (host : ByteOrder) (data : Frame) : Option RegistrationModule :=
  if data.length < registrationModuleSize then none
  else some {
    signature := String.ofList
      (((peek data 0 maxLengthSignature).takeWhile (· ≠ 0)).map fun c => Char.ofNat c.toNat)
    service := ntohl host (loadLong host (peek data maxLengthSignature 4)) }

/-- The answer of `get_registration`. -/
def storePort (host : ByteOrder) (port : UInt16) : Frame := storeShort host (htons host port)

/-- The answer as `register_service` reads it. -/
def loadPort (host : ByteOrder) (data : Frame) : Option UInt16 :=
  if data.length < 2 then none else some (ntohs host (loadShort host (peek data 0 2)))

/-! ## Envelopes -/

/-- The `NUM_FRAMES` frames of a message at a `ROUTER` or a `DEALER`. -/
structure MultiMsg where
  idFrame : Frame
  emptyFrame : Frame
  dataFrame : Frame
  deriving DecidableEq

/-- The identifier the broker takes out of the identity frame; it is not swapped. -/
def readClientId (host : ByteOrder) (idFrame : Frame) : ClientId := loadLong host (peek idFrame 1 4)

/-- The identity frame `check_pending_requests` builds for a record. -/
def identityFrame (host : ByteOrder) (clientId : ClientId) : Frame := 0 :: storeLong host clientId

/-- The identity frame `ping_server` makes up. -/
def addressPing : Frame := 0 :: List.replicate 4 97

/-- An identity frame as a `ROUTER` makes it: a zero and four bytes. -/
def MultiMsg.Framed (message : MultiMsg) : Prop :=
  ∃ bytes : List UInt8, bytes.length = 4 ∧ message.idFrame = 0 :: bytes

/-- One iteration of the loop of `send_multi_msg`; the flag says that more frames follow. -/
def sendMore (msg : List Frame) (i : UInt8) (state : UInt8 × List (Frame × Bool)) :
    Option (UInt8 × List (Frame × Bool)) :=
  msg[i.toNat]?.map fun frame => (i + 1, state.2 ++ [(frame, true)])

/-- `send_multi_msg`, given up after `fuel` iterations: the frames, each with its flag.  The index
is a `uint8_t`, and the size of an empty vector less one is the largest `size_t`. -/
def sendMultiMsg (msg : List Frame) (fuel : ℕ) : Option (List (Frame × Bool)) := do
  let size := if msg.length = 0 then 2 ^ 64 - 1 else msg.length - 1
  let (i, sent) ← forUInt8 size (sendMore msg) fuel (0, [])
  -- the last message in the sequence
  msg[i.toNat]?.map fun frame => sent ++ [(frame, false)]

/-! ## The broker on frames -/

/-- A message the broker hands to one of its sockets. -/
inductive WireOutput
  | router (message : MultiMsg)
  | dealer (index : ℕ) (message : MultiMsg)
  | reg (message : MultiMsg)
  deriving DecidableEq

/-- A broker computation that sends frames. -/
abbrev WireEffect := Outcome WireOutput Fault

/-- A computation of the database, which sends nothing. -/
def onDatabase {α : Type} (m : Effect α) : WireEffect α := Outcome.only (fun _ => none) m

namespace Broker

variable {nmr : UInt8}

/-- `send_multi_msg(router, …)` -/
def sendRouterMsg (connected : Frame → Bool) (message : MultiMsg) : WireEffect Unit :=
  if connected message.idFrame then Outcome.tell (.router message)
  else Outcome.fail .hostUnreachable

/-- `send_multi_msg(dealer[index], …)` -/
def sendDealerMsg (b : Broker nmr) (index : ℕ) (message : MultiMsg) : WireEffect Unit :=
  if index < b.dealer.length then Outcome.tell (.dealer index message)
  else Outcome.fail .outOfRange

def sendCopiesMsg (b : Broker nmr) (index : ℕ) (message : MultiMsg) : ℕ → WireEffect Unit
  | 0 => pure ()
  | n + 1 => do
      b.sendDealerMsg index message
      b.sendCopiesMsg index message n

/-- `get_request`; `response` and `sm` are the memory of its locals. -/
def getRequestMsg (host : ByteOrder) (connected : Frame → Bool) (b : Broker nmr)
    (bufferIn : MultiMsg) (response : Vector UInt8 responseModuleSize)
    (sm : Vector UInt8 serviceModuleSize) (now later : Timespec) : WireEffect (Broker nmr) :=
  let clientId := readClientId host bufferIn.idFrame
  match loadRequestModule host bufferIn.dataFrame with
  | none => Outcome.fail .outOfRange
  | some request =>
      match b.db.findRegistration request.service with
      | none => do
          sendRouterMsg connected { bufferIn with
            dataFrame := storeResponseModule host response ⟨.serviceNotAvailable, none⟩ }
          pure b
      | some ret => do
          let (seqId, db) ← onDatabase (b.db.getRequestId request.service)
          let numCopiesReliable ← onDatabase (db.getReliableCopies request.service)
          b.sendCopiesMsg ret.toNat { bufferIn with
            dataFrame := storeServiceModule host sm ⟨false, seqId, some request.parameters⟩ }
            numCopiesReliable.toNat
          let db ← onDatabase (db.pushRequest clientId request.service now)
          onDatabase (updateTimeout { b with db := db } request.service later)

/-- `get_registration`: the envelope is sent on, and the port follows it. -/
def getRegistrationMsg (host : ByteOrder) (b : Broker nmr) (message : MultiMsg) (now : Timespec) :
    WireEffect (Broker nmr) :=
  match loadRegistrationModule host message.dataFrame with
  | none => Outcome.fail .outOfRange
  | some rm => do
      let reg := b.db.pushRegistration rm b.availableDealerPort
      let b := { b with db := reg.db, availableDealerPort := reg.dealerSocket }
      let b ← onDatabase (if reg.ready ∧ rm.service ∉ b.availableServices then
          b.makeAvailable rm.service reg.ret now
        else pure b)
      Outcome.tell (.reg { message with dataFrame := storePort host reg.ret })
      pure b

/-- `get_response`; `response` is the memory of its local. -/
def getResponseMsg (host : ByteOrder) (connected : Frame → Bool) (b : Broker nmr)
    (bufferIn : MultiMsg) (response : Vector UInt8 responseModuleSize) :
    WireEffect (Broker nmr) :=
  let clientId := readClientId host bufferIn.idFrame
  match loadServerReply host bufferIn.dataFrame with
  | none => Outcome.fail .outOfRange
  | some serverReply =>
      if serverReply.heartbeat then do
        let db ← onDatabase (b.db.registerPong serverReply.id serverReply.service)
        pure { b with db := db }
      else if serverReply.duplicated then pure b
      else do
        let (numCopies, db) ← onDatabase (b.db.pushResult serverReply clientId)
        if (nmr.toNat / 2 : ℕ) < numCopies then do
          let values ← onDatabase (db.getResult serverReply.service clientId)
          let (ret, result) ← onDatabase (vote nmr values none)
          if 0 ≤ ret then do
            sendRouterMsg connected { bufferIn with
              dataFrame := storeResponseModule host response ⟨.serviceAvailable, result⟩ }
            let db ← onDatabase (db.deleteRequest serverReply.service clientId)
            pure { b with db := db }
          else if numCopies = nmr.toNat then do
            sendRouterMsg connected { bufferIn with
              dataFrame := storeResponseModule host response ⟨.serviceNotReliable, result⟩ }
            let db ← onDatabase (db.deleteRequest serverReply.service clientId)
            pure { b with db := db }
          else pure { b with db := db }
        else pure { b with db := db }

/-- `ping_server`; `sm` is the memory of its local. -/
def pingServerMsg (host : ByteOrder) (b : Broker nmr) (sm : Vector UInt8 serviceModuleSize)
    (i : UInt8) (service : ServiceType) : WireEffect Unit := do
  let seqId ← onDatabase (b.db.getPingId service)
  match b.availableServices[i.toNat]? with
  | none => Outcome.fail .outOfRange
  | some counted => do
      let numCopiesReliable ← onDatabase (b.db.getReliableCopies counted)
      b.sendCopiesMsg i.toNat
        ⟨addressPing, [], storeServiceModule host sm ⟨true, seqId, none⟩⟩ numCopiesReliable.toNat

/-- The body of the heartbeat loop of `step`. -/
def heartbeatMsg (host : ByteOrder) (b : Broker nmr) (sm : Vector UInt8 serviceModuleSize) (i : ℕ)
    (now later : Timespec) : WireEffect (Broker nmr) :=
  match b.timeout[i]? with
  | none => pure b
  | some deadline =>
      if timeCmp now deadline = 1 then
        match b.availableServices[i]? with
        | none => Outcome.fail .outOfRange
        | some service => do
            let db ← onDatabase (b.db.checkPong service)
            let b := { b with db := db }
            b.pingServerMsg host sm (UInt8.ofNat i) service
            onDatabase (b.updateTimeout service later)
      else pure b

/-- The body of the inner loop of `check_pending_requests`. -/
def sweepRecordMsg (host : ByteOrder) (connected : Frame → Bool)
    (response : Vector UInt8 responseModuleSize) (now : Timespec) (i : ℕ)
    (state : Option Int32 × ServiceDatabase nmr) (pending : RequestRecord) :
    WireEffect (Option Int32 × ServiceDatabase nmr) :=
  if timeCmp now pending.timeout = 1 then do
    let (ret, result) ← onDatabase (vote nmr pending.results state.1)
    sendRouterMsg connected ⟨identityFrame host pending.clientId, [],
      storeResponseModule host response
        ⟨if 0 ≤ ret then .serviceAvailable else .serviceNotReliable, result⟩⟩
    let db ← onDatabase (state.2.deleteRequest (UInt32.ofNat i) pending.clientId)
    pure (result, db)
  else pure state

/-- The body of the outer loop of `check_pending_requests`. -/
def sweepServiceMsg (host : ByteOrder) (connected : Frame → Bool)
    (response : Vector UInt8 responseModuleSize) (now : Timespec)
    (state : Option Int32 × ServiceDatabase nmr) (entry : ServiceType × ℕ) :
    WireEffect (Option Int32 × ServiceDatabase nmr) := do
  let pendingRequests ← onDatabase (state.2.getPendingRequests entry.1)
  pendingRequests.foldlM (sweepRecordMsg host connected response now entry.2) state

/-- `check_pending_requests`; `response` is the memory of its local. -/
def checkPendingRequestsMsg (host : ByteOrder) (connected : Frame → Bool) (b : Broker nmr)
    (response : Vector UInt8 responseModuleSize) (now : Timespec) : WireEffect (Broker nmr) := do
  let (_, db) ← b.availableServices.zipIdx.foldlM
    (sweepServiceMsg host connected response now) (none, b.db)
  pure { b with db := db }

end Broker

/-- One call that `step` makes, with the frames it receives, its clock readings and the memory of
its locals. -/
inductive WireEvent
  | registration (message : MultiMsg) (now : Timespec)
  | request (bufferIn : MultiMsg) (response : Vector UInt8 responseModuleSize)
      (sm : Vector UInt8 serviceModuleSize) (now later : Timespec)
  | response (dealerIndex : ℕ) (bufferIn : MultiMsg)
      (response : Vector UInt8 responseModuleSize)
  | heartbeat (i : ℕ) (sm : Vector UInt8 serviceModuleSize) (now later : Timespec)
  | sweep (response : Vector UInt8 responseModuleSize) (now : Timespec)

/-- One call, and the identities that are connected. -/
structure WireMoment where
  connected : Frame → Bool
  event : WireEvent

namespace Broker

variable {nmr : UInt8}

/-- The handler `step` calls. -/
def handleMsg (host : ByteOrder) (connected : Frame → Bool) (b : Broker nmr) :
    WireEvent → WireEffect (Broker nmr)
  | .registration message now => b.getRegistrationMsg host message now
  | .request bufferIn response sm now later =>
      b.getRequestMsg host connected bufferIn response sm now later
  | .response _ bufferIn response => b.getResponseMsg host connected bufferIn response
  | .heartbeat i sm now later => b.heartbeatMsg host sm i now later
  | .sweep response now => b.checkPendingRequestsMsg host connected response now

/-- A run of the broker on frames. -/
def runMsg (host : ByteOrder) (b : Broker nmr) (moments : List WireMoment) :
    WireEffect (Broker nmr) :=
  moments.foldlM (fun b moment => b.handleMsg host moment.connected moment.event) b

end Broker

end ReliableService
