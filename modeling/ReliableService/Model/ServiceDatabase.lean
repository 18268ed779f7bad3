import Mathlib.Data.Fintype.Card
import Mathlib.Data.Finset.Filter
import Mathlib.Data.Fintype.Basic
import ReliableService.Model.Communication
import ReliableService.Model.Clock

/-!
# The service database

`service_database_class.cpp`.  The redundancy `nmr` is fixed when the database is
built, and `push_registration` gives every record `nmr` slots for its copies; both
facts are in the types (`ServiceRecord nmr`, vectors of length `nmr`).

The hash table is a partial map.  `print_htable` only writes to the log and is left
out, and so is `request_record_t::service`, which nothing writes or reads.
-/

namespace ReliableService

/-- `request_record_t` -/
structure RequestRecord where
  clientId : ClientId
  results : List Int32
  timeout : Timespec
  deriving DecidableEq, Repr

/-- `service_record` -/
structure ServiceRecord (nmr : UInt8) where
  owner : String
  numCopiesRegistered : UInt8
  numCopiesReliable : UInt8
  dealerSocket : UInt16
  dealerSktIndex : UInt16
  seqIdPing : UInt32
  seqIdRequest : UInt32
  requestRecords : List RequestRecord
  newPong : Vector Bool nmr.toNat
  lostPong : Vector Int nmr.toNat
  deriving DecidableEq

/-- `ServiceDatabase` -/
structure ServiceDatabase (nmr : UInt8) where
  servicesDb : ServiceType → Option (ServiceRecord nmr)
  nextDealerSktIndex : UInt16

variable {nmr : UInt8}

/-! ## One record -/

namespace ServiceRecord

/-- The record `push_registration` builds for the first copy of a service. -/
def init (owner : String) (dealerSocket dealerSktIndex : UInt16) : ServiceRecord nmr where
  owner := owner
  numCopiesRegistered := 1
  numCopiesReliable := 1
  dealerSocket := dealerSocket
  dealerSktIndex := dealerSktIndex
  seqIdPing := -1
  seqIdRequest := 0
  requestRecords := []
  newPong := Vector.replicate nmr.toNat false
  lostPong := Vector.replicate nmr.toNat (-1)

/-- A further registration, refused once `nmr` copies are counted. -/
def register (record : ServiceRecord nmr) : Option (ServiceRecord nmr) :=
  if record.numCopiesRegistered < nmr then
    some { record with
      numCopiesRegistered := record.numCopiesRegistered + 1
      numCopiesReliable := record.numCopiesReliable + 1 }
  else none

/-- `new_pong[id_copy] = true` -/
def registerPong (record : ServiceRecord nmr) (idCopy : Fin nmr.toNat) : ServiceRecord nmr :=
  { record with newPong := record.newPong.set idCopy true }

/-- `new_pong[j]` -/
def pongOf (record : ServiceRecord nmr) (j : Fin nmr.toNat) : Bool := record.newPong[j]

/-- `lost_pong[j]` -/
def lostOf (record : ServiceRecord nmr) (j : Fin nmr.toNat) : Int := record.lostPong[j]

/-- What one iteration of the loop of `check_pong` makes of `new_pong[j]` and
`lost_pong[j]`.  The third case is silent: an unreliable copy stays unreliable. -/
def checkSlot (newPong : Bool) (lostPong : Int) : Bool × Int :=
  if !newPong && lostPong < liveness then (newPong, lostPong + 1)
  else if newPong then (false, 0)
  else (newPong, lostPong)

/-- The slots whose copy this `check_pong` declares unreliable. -/
def unreliableUnits (record : ServiceRecord nmr) : Finset (Fin nmr.toNat) :=
  Finset.univ.filter fun j =>
    (!record.pongOf j && record.lostOf j < liveness) && record.lostOf j + 1 = liveness

/-- `check_pong` -/
def checkPong (record : ServiceRecord nmr) : ServiceRecord nmr :=
  { record with
    newPong := Vector.ofFn fun j => (checkSlot (record.pongOf j) (record.lostOf j)).1
    lostPong := Vector.ofFn fun j => (checkSlot (record.pongOf j) (record.lostOf j)).2
    numCopiesReliable :=
      record.numCopiesReliable - UInt8.ofNat record.unreliableUnits.card
    numCopiesRegistered :=
      record.numCopiesRegistered - UInt8.ofNat record.unreliableUnits.card
    seqIdPing := record.seqIdPing + 1 }

/-- The loop of `push_result`: append to every record of the client. -/
def appendResult (clientId : ClientId) (result : Int32) (records : List RequestRecord) :
    List RequestRecord :=
  records.map fun record =>
    if record.clientId = clientId then { record with results := record.results ++ [result] }
    else record

/-- The last record of a client: the one whose size `push_result` returns and whose
results `get_result` returns. -/
def lastOf (clientId : ClientId) (records : List RequestRecord) : Option RequestRecord :=
  (records.filter (·.clientId = clientId)).getLast?

/-- The loop of `delete_request`.  Erasing at `j` moves the next record to `j`, and
`j++` then steps over it, so the record after a deleted one is never looked at. -/
def deleteLoop (clientId : ClientId) : List RequestRecord → List RequestRecord
  | [] => []
  | record :: rest =>
      if record.clientId = clientId then
        match rest with
        | [] => []
        | next :: rest => next :: deleteLoop clientId rest
      else record :: deleteLoop clientId rest

end ServiceRecord

/-! ## The database -/

namespace ServiceDatabase

/-- `ServiceDatabase::ServiceDatabase` -/
def init : ServiceDatabase nmr where
  servicesDb := fun _ => none
  nextDealerSktIndex := 0

/-- `services_db[service] = record` -/
def insert (db : ServiceDatabase nmr) (service : ServiceType) (record : ServiceRecord nmr) :
    ServiceDatabase nmr :=
  { db with
    servicesDb := fun other => if other = service then some record else db.servicesDb other }

/-- `find`, followed by the `exit` that every method but three makes on a miss. -/
def lookup (db : ServiceDatabase nmr) (service : ServiceType) : Effect (ServiceRecord nmr) :=
  match db.servicesDb service with
  | none => Outcome.fail .exitFailure
  | some record => pure record

/-- `find_registration`; `none` is `SERVICE_NOT_FOUND`. -/
def findRegistration (db : ServiceDatabase nmr) (service : ServiceType) : Option UInt16 :=
  (db.servicesDb service).map (·.dealerSktIndex)

/-- What `push_registration` leaves: the database, the by-reference arguments
`dealer_socket` and `ready`, and the returned port. -/
structure Registered (nmr : UInt8) where
  db : ServiceDatabase nmr
  dealerSocket : UInt16
  ready : Bool
  ret : UInt16

/-- `push_registration` -/
def pushRegistration (db : ServiceDatabase nmr) (regMod : RegistrationModule)
    (dealerSocket : UInt16) : Registered nmr :=
  match db.servicesDb regMod.service with
  | none =>
      let record := ServiceRecord.init regMod.signature dealerSocket db.nextDealerSktIndex
      { db := { db.insert regMod.service record with
          nextDealerSktIndex := db.nextDealerSktIndex + 1 }
        dealerSocket := dealerSocket + 1
        ready := false
        ret := dealerSocket }
  | some record =>
      match record.register with
      | none => { db := db, dealerSocket := dealerSocket, ready := false, ret := regFail }
      | some record =>
          { db := db.insert regMod.service record
            dealerSocket := dealerSocket
            ready := record.numCopiesRegistered = nmr
            ret := record.dealerSocket }

/-- `push_request`, at time `now`. -/
def pushRequest (db : ServiceDatabase nmr) (clientId : ClientId) (service : ServiceType)
    (now : Timespec) : Effect (ServiceDatabase nmr) := do
  let record ← db.lookup service
  let request : RequestRecord := ⟨clientId, [], timeAddMs now requestTimeout⟩
  pure (db.insert service { record with requestRecords := record.requestRecords ++ [request] })

/-- `delete_request` -/
def deleteRequest (db : ServiceDatabase nmr) (service : ServiceType) (clientId : ClientId) :
    Effect (ServiceDatabase nmr) := do
  let record ← db.lookup service
  pure (db.insert service { record with
    requestRecords := ServiceRecord.deleteLoop clientId record.requestRecords })

/-- `push_result`: the returned number is `-1` when the client has no record. -/
def pushResult (db : ServiceDatabase nmr) (serverReply : ServerReply) (clientId : ClientId) :
    Effect (Int × ServiceDatabase nmr) := do
  let record ← db.lookup serverReply.service
  let records := ServiceRecord.appendResult clientId serverReply.result record.requestRecords
  let ret : Int :=
    match ServiceRecord.lastOf clientId records with
    | none => -1
    | some last => last.results.length
  pure (ret, db.insert serverReply.service { record with requestRecords := records })

/-- `get_result` -/
def getResult (db : ServiceDatabase nmr) (service : ServiceType) (clientId : ClientId) :
    Effect (List Int32) := do
  let record ← db.lookup service
  match ServiceRecord.lastOf clientId record.requestRecords with
  | none => pure []
  | some last => pure last.results

/-- `register_pong`: the identifier indexes `new_pong` unchecked. -/
def registerPong (db : ServiceDatabase nmr) (idCopy : UInt8) (service : ServiceType) :
    Effect (ServiceDatabase nmr) := do
  let record ← db.lookup service
  if h : idCopy.toNat < nmr.toNat then
    pure (db.insert service (record.registerPong ⟨idCopy.toNat, h⟩))
  else Outcome.fail .outOfRange

/-- `check_pong`: the iterator is dereferenced unchecked. -/
def checkPong (db : ServiceDatabase nmr) (service : ServiceType) : Effect (ServiceDatabase nmr) :=
  match db.servicesDb service with
  | none => Outcome.fail .outOfRange
  | some record => pure (db.insert service record.checkPong)

/-- `get_reliable_copies` -/
def getReliableCopies (db : ServiceDatabase nmr) (service : ServiceType) : Effect UInt8 := do
  let record ← db.lookup service
  pure record.numCopiesReliable

/-- `get_ping_id` -/
def getPingId (db : ServiceDatabase nmr) (service : ServiceType) : Effect UInt32 := do
  let record ← db.lookup service
  pure record.seqIdPing

/-- `get_request_id`, which post-increments the counter. -/
def getRequestId (db : ServiceDatabase nmr) (service : ServiceType) :
    Effect (UInt32 × ServiceDatabase nmr) := do
  let record ← db.lookup service
  pure (record.seqIdRequest,
    db.insert service { record with seqIdRequest := record.seqIdRequest + 1 })

/-- `get_pending_requests` -/
def getPendingRequests (db : ServiceDatabase nmr) (service : ServiceType) :
    Effect (List RequestRecord) := do
  let record ← db.lookup service
  pure record.requestRecords

end ServiceDatabase

end ReliableService
