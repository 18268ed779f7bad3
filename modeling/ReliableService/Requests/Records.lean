import Mathlib.Data.List.Basic
import ReliableService.Model.Broker

/-!
# Request records

The loops of `push_result` and `delete_request` on a list of records, seen through the
records of one client, and the database operations as equations.

`deleteLoop` skips the record after a deleted one, so in general it leaves some of the
client's records behind.  It never touches another client's (`ofClient_deleteLoop_of_ne`),
and it deletes everything while a client has at most one record
(`ofClient_deleteLoop_self`), which is the only situation a handler relies on.
-/

namespace ReliableService

namespace ServiceRecord

variable {c c' : ClientId} {records : List RequestRecord}

/-- The records of one client. -/
def ofClient (c : ClientId) (records : List RequestRecord) : List RequestRecord :=
  records.filter (·.clientId = c)

@[simp] theorem ofClient_nil (c : ClientId) : ofClient c [] = [] := rfl

theorem ofClient_cons (c : ClientId) (record : RequestRecord) (records : List RequestRecord) :
    ofClient c (record :: records) =
      if record.clientId = c then record :: ofClient c records else ofClient c records := by
  simp [ofClient, List.filter_cons]

@[simp] theorem ofClient_append (c : ClientId) (first second : List RequestRecord) :
    ofClient c (first ++ second) = ofClient c first ++ ofClient c second :=
  List.filter_append ..

theorem mem_ofClient {record : RequestRecord} :
    record ∈ ofClient c records ↔ record ∈ records ∧ record.clientId = c := by
  simp [ofClient]

theorem lastOf_eq (c : ClientId) (records : List RequestRecord) :
    lastOf c records = (ofClient c records).getLast? := rfl

/-! ### Appending a result -/

/-- The record with one more result. -/
def withResult (result : Int32) (record : RequestRecord) : RequestRecord :=
  { record with results := record.results ++ [result] }

theorem appendResult_eq (c : ClientId) (result : Int32) (records : List RequestRecord) :
    appendResult c result records =
      records.map fun record => if record.clientId = c then withResult result record else record :=
  rfl

theorem ofClient_appendResult_self (result : Int32) :
    ofClient c (appendResult c result records) = (ofClient c records).map (withResult result) := by
  induction records with
  | nil => rfl
  | cons record records ih =>
      rw [appendResult_eq] at ih ⊢
      rw [List.map_cons, ofClient_cons, ofClient_cons, ih]
      by_cases h : record.clientId = c <;> simp [h, withResult]

theorem ofClient_appendResult_of_ne (hne : c' ≠ c) (result : Int32) :
    ofClient c' (appendResult c result records) = ofClient c' records := by
  induction records with
  | nil => rfl
  | cons record records ih =>
      rw [appendResult_eq] at ih ⊢
      rw [List.map_cons, ofClient_cons, ofClient_cons, ih]
      by_cases h : record.clientId = c
      · simp [h, withResult, Ne.symm hne]
      · simp [h]

theorem appendResult_of_ofClient_nil (h : ofClient c records = []) (result : Int32) :
    appendResult c result records = records := by
  rw [appendResult_eq]
  refine (List.map_congr_left ?_).trans (List.map_id records)
  intro record hrecord
  have hnot : record.clientId ≠ c := by
    intro heq
    have hmem : record ∈ ofClient c records := mem_ofClient.mpr ⟨hrecord, heq⟩
    rw [h] at hmem
    simp at hmem
  simp [hnot]

/-! ### Deleting -/

theorem deleteLoop_sublist (c : ClientId) (records : List RequestRecord) :
    (deleteLoop c records).Sublist records := by
  fun_induction deleteLoop c records with
  | case1 => exact List.Sublist.refl _
  | case2 record => exact List.nil_sublist _
  | case3 record _ next rest ih => exact (ih.cons_cons next).cons record
  | case4 record rest _ ih => exact ih.cons_cons record

theorem ofClient_deleteLoop_of_ne (hne : c' ≠ c) :
    ofClient c' (deleteLoop c records) = ofClient c' records := by
  fun_induction deleteLoop c records with
  | case1 => rfl
  | case2 record h => simp [ofClient_cons, h, Ne.symm hne]
  | case3 record h next rest ih =>
      have hrecord : record.clientId ≠ c' := by
        rw [h]
        exact Ne.symm hne
      rw [ofClient_cons, ofClient_cons c' record, ofClient_cons, ih, if_neg hrecord]
  | case4 record rest h ih => rw [ofClient_cons, ofClient_cons, ih]

theorem deleteLoop_of_ofClient_nil (h : ofClient c records = []) :
    deleteLoop c records = records := by
  fun_induction deleteLoop c records with
  | case1 => rfl
  | case2 record hc => simp [ofClient_cons, hc] at h
  | case3 record hc next rest ih => simp [ofClient_cons, hc] at h
  | case4 record rest hc ih =>
      rw [ofClient_cons, if_neg hc] at h
      rw [ih h]

/-- A client's only record is deleted. -/
theorem ofClient_deleteLoop_self (h : (ofClient c records).length ≤ 1) :
    ofClient c (deleteLoop c records) = [] := by
  fun_induction deleteLoop c records with
  | case1 => rfl
  | case2 record hc => rfl
  | case3 record hc next rest ih =>
      rw [ofClient_cons, if_pos hc, List.length_cons] at h
      have hnil : ofClient c (next :: rest) = [] := List.eq_nil_of_length_eq_zero (by omega)
      rw [ofClient_cons] at hnil ⊢
      split at hnil
      · simp at hnil
      · rename_i hnext
        rw [if_neg hnext, deleteLoop_of_ofClient_nil hnil, hnil]
  | case4 record rest hc ih =>
      rw [ofClient_cons, if_neg hc] at h ⊢
      exact ih h

theorem ofClient_deleteLoop_length_le (c' c : ClientId) (records : List RequestRecord) :
    (ofClient c' (deleteLoop c records)).length ≤ (ofClient c' records).length :=
  ((deleteLoop_sublist c records).filter _).length_le

end ServiceRecord

/-! ## The database operations -/

namespace ServiceDatabase

open ServiceRecord

variable {nmr : UInt8} {db : ServiceDatabase nmr} {service other : ServiceType}
  {record : ServiceRecord nmr}

@[simp] theorem insert_self (db : ServiceDatabase nmr) (service : ServiceType)
    (record : ServiceRecord nmr) : (db.insert service record).servicesDb service = some record := by
  simp [insert]

theorem insert_of_ne (db : ServiceDatabase nmr) (hne : other ≠ service)
    (record : ServiceRecord nmr) :
    (db.insert service record).servicesDb other = db.servicesDb other := by
  simp [insert, hne]

theorem insert_eq_self (h : db.servicesDb service = some record) :
    db.insert service record = db := by
  have : (db.insert service record).servicesDb = db.servicesDb := by
    funext other
    by_cases hother : other = service
    · rw [hother, insert_self, h]
    · rw [insert_of_ne db hother]
  cases db
  simp_all [insert]

theorem lookup_of_some (h : db.servicesDb service = some record) :
    db.lookup service = pure record := by
  rw [lookup, h]

theorem lookup_of_none (h : db.servicesDb service = none) :
    db.lookup service = Outcome.fail .exitFailure := by
  rw [lookup, h]

/-- The pending requests of a service. -/
def pending (db : ServiceDatabase nmr) (service : ServiceType) : List RequestRecord :=
  (db.servicesDb service).elim [] (·.requestRecords)

theorem pending_of_some (h : db.servicesDb service = some record) :
    db.pending service = record.requestRecords := by
  rw [pending, h]
  rfl

theorem pending_of_none (h : db.servicesDb service = none) : db.pending service = [] := by
  rw [pending, h]
  rfl

@[simp] theorem pending_insert_self (db : ServiceDatabase nmr) (service : ServiceType)
    (record : ServiceRecord nmr) :
    (db.insert service record).pending service = record.requestRecords :=
  pending_of_some (insert_self ..)

theorem pending_insert_of_ne (db : ServiceDatabase nmr) (hne : other ≠ service)
    (record : ServiceRecord nmr) : (db.insert service record).pending other = db.pending other := by
  rw [pending, insert_of_ne db hne, pending]

/-- Rewriting a record without touching its requests leaves every pending list alone. -/
theorem pending_insert_of_eq (h : db.pending service = record.requestRecords)
    (other : ServiceType) : (db.insert service record).pending other = db.pending other := by
  by_cases hother : other = service
  · rw [hother, pending_insert_self, h]
  · exact pending_insert_of_ne db hother record

/-- A deletion leaves no pending list longer. -/
theorem pending_delete (h : db.servicesDb service = some record) (c : ClientId) :
    ((db.insert service { record with
      requestRecords := deleteLoop c record.requestRecords }).pending other).Sublist
        (db.pending other) := by
  by_cases hother : other = service
  · rw [hother, pending_insert_self, pending_of_some h]
    exact deleteLoop_sublist c _
  · rw [pending_insert_of_ne db hother]

section Operations

variable (h : db.servicesDb service = some record)

include h

theorem pushRequest_of_some (c : ClientId) (now : Timespec) :
    db.pushRequest c service now = pure (db.insert service { record with
      requestRecords := record.requestRecords ++ [⟨c, [], timeAddMs now requestTimeout⟩] }) := by
  rw [pushRequest, lookup_of_some h, Outcome.pure_bind']

theorem deleteRequest_of_some (c : ClientId) :
    db.deleteRequest service c = pure (db.insert service { record with
      requestRecords := deleteLoop c record.requestRecords }) := by
  rw [deleteRequest, lookup_of_some h, Outcome.pure_bind']

theorem getResult_of_some (c : ClientId) :
    db.getResult service c =
      pure ((lastOf c record.requestRecords).elim [] (·.results)) := by
  rw [getResult, lookup_of_some h, Outcome.pure_bind']
  cases lastOf c record.requestRecords <;> rfl

theorem getRequestId_of_some :
    db.getRequestId service = pure (record.seqIdRequest,
      db.insert service { record with seqIdRequest := record.seqIdRequest + 1 }) := by
  rw [getRequestId, lookup_of_some h, Outcome.pure_bind']

theorem getReliableCopies_of_some :
    db.getReliableCopies service = pure record.numCopiesReliable := by
  rw [getReliableCopies, lookup_of_some h, Outcome.pure_bind']

theorem getPingId_of_some : db.getPingId service = pure record.seqIdPing := by
  rw [getPingId, lookup_of_some h, Outcome.pure_bind']

theorem getPendingRequests_of_some :
    db.getPendingRequests service = pure record.requestRecords := by
  rw [getPendingRequests, lookup_of_some h, Outcome.pure_bind']

theorem registerPong_of_some {idCopy : UInt8} (hid : idCopy.toNat < nmr.toNat) :
    db.registerPong idCopy service =
      pure (db.insert service (record.registerPong ⟨idCopy.toNat, hid⟩)) := by
  rw [registerPong, lookup_of_some h, Outcome.pure_bind', dif_pos hid]

theorem checkPong_of_some : db.checkPong service = pure (db.insert service record.checkPong) := by
  rw [checkPong, h]

end Operations

theorem pushResult_of_some {reply : ServerReply} (h : db.servicesDb reply.service = some record)
    (c : ClientId) :
    db.pushResult reply c = pure
      ((lastOf c (appendResult c reply.result record.requestRecords)).elim (-1)
          fun last => (last.results.length : Int),
        db.insert reply.service { record with
          requestRecords := appendResult c reply.result record.requestRecords }) := by
  rw [pushResult, lookup_of_some h, Outcome.pure_bind']
  cases hlast : lastOf c (appendResult c reply.result record.requestRecords) <;> simp [hlast]

end ServiceDatabase

end ReliableService
