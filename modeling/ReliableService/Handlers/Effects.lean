import ReliableService.Clients.Gate
import ReliableService.Requests.Records

/-!
# What a handler does when it returns

One inversion lemma for each handler: the broker it returns, and what it sends.  Later
modules take the handlers apart through these and never unfold them.

Clients that have gone away are dealt with in `Clients.Gate`; here everybody is connected.
-/

namespace ReliableService

open ServiceRecord

variable {nmr : UInt8}

/-! ## Requests and copies live apart -/

/-- A record without its request side. -/
def ServiceRecord.clearRequests (record : ServiceRecord nmr) : ServiceRecord nmr :=
  { record with seqIdRequest := 0, requestRecords := [] }

/-- Two databases that differ in requests only. -/
structure SameCopies (db db' : ServiceDatabase nmr) : Prop where
  next_eq : db'.nextDealerSktIndex = db.nextDealerSktIndex
  record_eq : ∀ service,
    (db'.servicesDb service).map clearRequests = (db.servicesDb service).map clearRequests

namespace SameCopies

variable {db db' db'' : ServiceDatabase nmr} {service : ServiceType}
  {record record' : ServiceRecord nmr}

theorem refl (db : ServiceDatabase nmr) : SameCopies db db := ⟨rfl, fun _ => rfl⟩

theorem trans (h : SameCopies db db') (h' : SameCopies db' db'') : SameCopies db db'' :=
  ⟨h'.next_eq.trans h.next_eq, fun service => (h'.record_eq service).trans (h.record_eq service)⟩

theorem insert (h : db.servicesDb service = some record)
    (heq : record'.clearRequests = record.clearRequests) :
    SameCopies db (db.insert service record') := by
  refine ⟨rfl, ?_⟩
  intro other
  by_cases hother : other = service
  · rw [hother, ServiceDatabase.insert_self, h, Option.map_some, Option.map_some, heq]
  · rw [ServiceDatabase.insert_of_ne db hother]

theorem eq_none_iff (h : SameCopies db db') :
    db'.servicesDb service = none ↔ db.servicesDb service = none := by
  rw [← Option.map_eq_none_iff, h.record_eq service, Option.map_eq_none_iff]

theorem exists_of_some (h : SameCopies db db') (hrecord : db.servicesDb service = some record) :
    ∃ record', db'.servicesDb service = some record' ∧
      record'.clearRequests = record.clearRequests := by
  have heq := h.record_eq service
  rw [hrecord, Option.map_some, Option.map_eq_some_iff] at heq
  exact heq

theorem symm (h : SameCopies db db') : SameCopies db' db :=
  ⟨h.next_eq.symm, fun service => (h.record_eq service).symm⟩

end SameCopies

namespace Broker

variable {b b' : Broker nmr} {c : ClientId}

/-! ## Sending -/

@[simp] theorem sendRouter_everyone (c : ClientId) (response : ResponseModule) :
    sendRouter everyone c response = Outcome.tell (.router c response) := rfl

theorem sendCopies_zero (b : Broker nmr) (index : ℕ) (envelope : ClientId) (sm : ServiceModule) :
    b.sendCopies index envelope sm 0 = pure () := rfl

theorem sendCopies_of_lt {index : ℕ} (h : index < b.dealer.length) (envelope : ClientId)
    (sm : ServiceModule) (n : ℕ) :
    b.sendCopies index envelope sm n = ⟨List.replicate n (.dealer index envelope sm), .ok ()⟩ := by
  induction n with
  | zero => rfl
  | succ n ih =>
      rw [sendCopies, ih, sendDealer, if_pos h]
      rfl

theorem sendCopies_of_not_lt {index : ℕ} (h : ¬ index < b.dealer.length) (envelope : ClientId)
    (sm : ServiceModule) {n : ℕ} (hn : 0 < n) :
    b.sendCopies index envelope sm n = Outcome.fail .outOfRange := by
  obtain ⟨n, rfl⟩ := Nat.exists_eq_succ_of_ne_zero hn.ne'
  rw [sendCopies, sendDealer, if_neg h]
  rfl

theorem sendCopies_ok {index : ℕ} {envelope : ClientId} {sm : ServiceModule} {n : ℕ} {u : Unit}
    (h : (b.sendCopies index envelope sm n).result = .ok u) :
    (n = 0 ∨ index < b.dealer.length) ∧
      (b.sendCopies index envelope sm n).sent = List.replicate n (.dealer index envelope sm) := by
  by_cases hlt : index < b.dealer.length
  · exact ⟨Or.inr hlt, by rw [sendCopies_of_lt hlt]⟩
  · rcases Nat.eq_zero_or_pos n with rfl | hn
    · exact ⟨Or.inl rfl, rfl⟩
    · rw [sendCopies_of_not_lt hlt envelope sm hn] at h
      cases h

theorem mem_sendCopies_sent {index : ℕ} {envelope : ClientId} {sm : ServiceModule} {n : ℕ}
    {output : Output} (h : output ∈ (b.sendCopies index envelope sm n).sent) :
    output = .dealer index envelope sm := by
  by_cases hlt : index < b.dealer.length
  · rw [sendCopies_of_lt hlt] at h
    exact List.eq_of_mem_replicate h
  · rcases Nat.eq_zero_or_pos n with rfl | hn
    · simp [sendCopies_zero] at h
    · rw [sendCopies_of_not_lt hlt envelope sm hn] at h
      simp at h

theorem length_sendCopies_le (b : Broker nmr) (index : ℕ) (envelope : ClientId)
    (sm : ServiceModule) (n : ℕ) : (b.sendCopies index envelope sm n).sent.length ≤ n := by
  by_cases hlt : index < b.dealer.length
  · rw [sendCopies_of_lt hlt, List.length_replicate]
  · rcases Nat.eq_zero_or_pos n with rfl | hn
    · exact Nat.le_refl 0
    · rw [sendCopies_of_not_lt hlt envelope sm hn]
      exact Nat.zero_le n

theorem updateTimeout_ok {service : ServiceType} {now : Timespec}
    (h : (b.updateTimeout service now).result = .ok b') :
    b.availableServices.idxOf service < b.timeout.length ∧
      b' = { b with timeout :=
        b.timeout.set (b.availableServices.idxOf service) (timeAddMs now heartbeatInterval) } := by
  unfold updateTimeout at h
  dsimp only at h
  split at h
  · rename_i hlt
    exact ⟨hlt, (Except.ok.inj h).symm⟩
  · cases h

@[simp] theorem updateTimeout_sent (b : Broker nmr) (service : ServiceType) (now : Timespec) :
    (b.updateTimeout service now).sent = [] := by
  unfold updateTimeout
  dsimp only
  split <;> rfl

/-! ## Registrations -/

/-- The broker after the database has taken a registration. -/
def registered (b : Broker nmr) (rm : RegistrationModule) : Broker nmr :=
  { b with
    db := (b.db.pushRegistration rm b.availableDealerPort).db
    availableDealerPort := (b.db.pushRegistration rm b.availableDealerPort).dealerSocket }

/-- The registration makes its service available. -/
def Completes (b : Broker nmr) (rm : RegistrationModule) : Prop :=
  (b.db.pushRegistration rm b.availableDealerPort).ready ∧ rm.service ∉ b.availableServices

instance (b : Broker nmr) (rm : RegistrationModule) : Decidable (b.Completes rm) :=
  inferInstanceAs (Decidable (_ ∧ _))

/-- The broker with a further available service and a socket for its copies. -/
def opened (b : Broker nmr) (service : ServiceType) (port : UInt16) (now : Timespec) : Broker nmr :=
  { b with
    availableServices := b.availableServices ++ [service]
    dealer := b.dealer ++ [port]
    items := b.items ++ [.dealer port]
    timeout := b.timeout ++ [timeAddMs now heartbeatInterval] }

theorem makeAvailable_ok {service : ServiceType} {port : UInt16} {now : Timespec}
    (h : (b.makeAvailable service port now).result = .ok b') : b' = b.opened service port now := by
  rw [makeAvailable, Outcome.bind_result_ok] at h
  obtain ⟨bound, hbound, h⟩ := h
  unfold addDealer at hbound
  split at hbound
  · cases hbound
  · rw [Outcome.pure_result, Except.ok.injEq] at hbound h
    rw [← h, ← hbound]
    rfl

@[simp] theorem makeAvailable_sent (b : Broker nmr) (service : ServiceType) (port : UInt16)
    (now : Timespec) : (b.makeAvailable service port now).sent = [] := by
  unfold makeAvailable addDealer
  split <;> rfl

theorem getRegistration_eq (b : Broker nmr) (rm : RegistrationModule) (now : Timespec) :
    b.getRegistration rm now = (do
      let b' ← (if b.Completes rm then (b.registered rm).makeAvailable rm.service
          (b.db.pushRegistration rm b.availableDealerPort).ret now
        else pure (b.registered rm))
      Outcome.tell (.reg (b.db.pushRegistration rm b.availableDealerPort).ret)
      pure b') := rfl

/-- **Registrations.** -/
theorem getRegistration_ok {rm : RegistrationModule} {now : Timespec}
    (h : (b.getRegistration rm now).result = .ok b') :
    b' = if b.Completes rm then (b.registered rm).opened rm.service
        (b.db.pushRegistration rm b.availableDealerPort).ret now
      else b.registered rm := by
  rw [getRegistration_eq, Outcome.bind_result_ok] at h
  obtain ⟨made, hmade, h⟩ := h
  have hb' : made = b' := by
    rw [Outcome.bind_result_ok] at h
    obtain ⟨_, _, h⟩ := h
    exact Except.ok.inj h
  split at hmade
  · rename_i hcompletes
    rw [if_pos hcompletes, ← hb', makeAvailable_ok hmade]
  · rename_i hcompletes
    rw [if_neg hcompletes, ← hb', ← Except.ok.inj hmade]

theorem mem_getRegistration_sent {rm : RegistrationModule} {now : Timespec} {output : Output}
    (h : output ∈ (b.getRegistration rm now).sent) :
    output = .reg (b.db.pushRegistration rm b.availableDealerPort).ret := by
  rw [getRegistration_eq, Outcome.mem_bind_sent] at h
  rcases h with h | ⟨made, -, h⟩
  · split at h <;> simp at h
  · rw [Outcome.mem_bind_sent] at h
    rcases h with h | ⟨_, -, h⟩
    · simpa using h
    · simp at h

/-! ## Requests -/

theorem getRequest_of_none {request : RequestModule} {now later : Timespec}
    (h : b.db.servicesDb request.service = none) :
    getRequest everyone b c request now later =
      ⟨[.router c ⟨.serviceNotAvailable, none⟩], .ok b⟩ := by
  rw [getRequest, ServiceDatabase.findRegistration, h]
  rfl

/-- The database after a request has been filed. -/
def filed (db : ServiceDatabase nmr) (record : ServiceRecord nmr) (c : ClientId)
    (service : ServiceType) (now : Timespec) : ServiceDatabase nmr :=
  (db.insert service { record with seqIdRequest := record.seqIdRequest + 1 }).insert service
    { record with
      seqIdRequest := record.seqIdRequest + 1
      requestRecords := record.requestRecords ++ [⟨c, [], timeAddMs now requestTimeout⟩] }

/-- What `get_request` sends to the copies. -/
def forward (record : ServiceRecord nmr) (request : RequestModule) : ServiceModule :=
  ⟨false, record.seqIdRequest, some request.parameters⟩

theorem getRequest_of_some {request : RequestModule} {now later : Timespec}
    {record : ServiceRecord nmr} (h : b.db.servicesDb request.service = some record) :
    getRequest everyone b c request now later = (do
      b.sendCopies record.dealerSktIndex.toNat c (forward record request)
        record.numCopiesReliable.toNat
      updateTimeout { b with db := filed b.db record c request.service now }
        request.service later) := by
  have hnext : (b.db.insert request.service
      { record with seqIdRequest := record.seqIdRequest + 1 }).servicesDb request.service =
      some { record with seqIdRequest := record.seqIdRequest + 1 } :=
    ServiceDatabase.insert_self ..
  rw [getRequest, ServiceDatabase.findRegistration, h, Option.map_some]
  simp only [ServiceDatabase.getRequestId_of_some h, Outcome.pure_bind',
    ServiceDatabase.getReliableCopies_of_some hnext, ServiceDatabase.pushRequest_of_some hnext]
  rfl

/-- **Requests for a registered service.** -/
theorem getRequest_ok {request : RequestModule} {now later : Timespec}
    {record : ServiceRecord nmr} (hrecord : b.db.servicesDb request.service = some record)
    (h : (getRequest everyone b c request now later).result = .ok b') :
    (record.numCopiesReliable.toNat = 0 ∨ record.dealerSktIndex.toNat < b.dealer.length) ∧
      b.availableServices.idxOf request.service < b.timeout.length ∧
      (getRequest everyone b c request now later).sent =
        List.replicate record.numCopiesReliable.toNat
          (.dealer record.dealerSktIndex.toNat c (forward record request)) ∧
      b' = { b with
        db := filed b.db record c request.service now
        timeout := b.timeout.set (b.availableServices.idxOf request.service)
          (timeAddMs later heartbeatInterval) } := by
  rw [getRequest_of_some hrecord] at h ⊢
  obtain ⟨u, hu, h⟩ := Outcome.bind_result_ok.mp h
  obtain ⟨hrange, hsent⟩ := sendCopies_ok hu
  obtain ⟨hlt, rfl⟩ := updateTimeout_ok h
  refine ⟨hrange, hlt, ?_, rfl⟩
  rw [Outcome.bind_sent_of_ok hu, hsent, updateTimeout_sent, List.append_nil]

theorem mem_getRequest_sent {request : RequestModule} {now later : Timespec}
    {record : ServiceRecord nmr} (hrecord : b.db.servicesDb request.service = some record)
    {output : Output} (h : output ∈ (getRequest everyone b c request now later).sent) :
    output = .dealer record.dealerSktIndex.toNat c (forward record request) := by
  rw [getRequest_of_some hrecord, Outcome.mem_bind_sent] at h
  rcases h with h | ⟨_, -, h⟩
  · exact mem_sendCopies_sent h
  · simp at h

/-- A request for a registered service goes to every copy that counts as reliable. -/
theorem getRequest_sent_of_lt {request : RequestModule} {record : ServiceRecord nmr}
    (hrecord : b.db.servicesDb request.service = some record)
    (hrange : record.dealerSktIndex.toNat < b.dealer.length) (c : ClientId)
    (now later : Timespec) :
    (getRequest everyone b c request now later).sent =
      List.replicate record.numCopiesReliable.toNat
        (.dealer record.dealerSktIndex.toNat c (forward record request)) := by
  rw [getRequest_of_some hrecord, Outcome.bind_sent_of_quiet fun _ => updateTimeout_sent ..,
    sendCopies_of_lt hrange]

/-- It does not matter to it which clients are there. -/
theorem getRequest_of_registered {request : RequestModule} {record : ServiceRecord nmr}
    (hrecord : b.db.servicesDb request.service = some record) (connected : ClientId → Bool)
    (c : ClientId) (now later : Timespec) :
    getRequest connected b c request now later = getRequest everyone b c request now later := by
  rw [getRequest, getRequest, ServiceDatabase.findRegistration, hrecord]
  rfl

/-- It goes to no more copies than that, whatever becomes of it. -/
theorem length_getRequest_le {request : RequestModule} {record : ServiceRecord nmr}
    (hrecord : b.db.servicesDb request.service = some record) (connected : ClientId → Bool)
    (c : ClientId) (now later : Timespec) :
    (getRequest connected b c request now later).sent.length ≤
      record.numCopiesReliable.toNat := by
  rw [getRequest_of_registered hrecord, getRequest_of_some hrecord,
    Outcome.bind_sent_of_quiet fun _ => updateTimeout_sent ..]
  exact length_sendCopies_le ..

theorem sameCopies_filed {db : ServiceDatabase nmr} {record : ServiceRecord nmr}
    {service : ServiceType} (h : db.servicesDb service = some record) (c : ClientId)
    (now : Timespec) : SameCopies db (filed db record c service now) := by
  refine (SameCopies.insert h ?_).trans (SameCopies.insert (ServiceDatabase.insert_self ..) ?_) <;>
    rfl

/-! ## Replies -/

variable {index : ℕ} {reply : ServerReply}

theorem getResponse_pong (hpong : reply.heartbeat = true) :
    getResponse everyone b index reply c = (do
      let db ← b.db.registerPong reply.id reply.service
      pure { b with db := db }) := by
  rw [getResponse, if_pos hpong]

theorem getResponse_duplicated (hpong : reply.heartbeat = false) (hdup : reply.duplicated = true) :
    getResponse everyone b index reply c = pure b := by
  rw [getResponse, if_neg (by simp [hpong]), if_pos hdup]

/-- **Pongs.** -/
theorem getResponse_pong_ok (hpong : reply.heartbeat = true)
    (h : (getResponse everyone b index reply c).result = .ok b') :
    ∃ record, b.db.servicesDb reply.service = some record ∧ ∃ hid : reply.id.toNat < nmr.toNat,
      b' = { b with db := b.db.insert reply.service (record.registerPong ⟨reply.id.toNat, hid⟩) } ∧
      (getResponse everyone b index reply c).sent = [] := by
  rw [getResponse_pong hpong] at h ⊢
  cases hrecord : b.db.servicesDb reply.service with
  | none =>
      rw [ServiceDatabase.registerPong, ServiceDatabase.lookup_of_none hrecord] at h
      cases h
  | some record =>
      by_cases hid : reply.id.toNat < nmr.toNat
      · rw [ServiceDatabase.registerPong_of_some hrecord hid] at h ⊢
        exact ⟨record, rfl, hid, (Except.ok.inj h).symm, rfl⟩
      · rw [ServiceDatabase.registerPong, ServiceDatabase.lookup_of_some hrecord,
          Outcome.pure_bind', dif_neg hid] at h
        cases h

/-- The reply counts for a client: it is no pong, no duplicate, and finds a record. -/
def Counts (b : Broker nmr) (reply : ServerReply) (c : ClientId) : Prop :=
  reply.heartbeat = false ∧ reply.duplicated = false ∧
    ofClient c (b.db.pending reply.service) ≠ []

instance (b : Broker nmr) (reply : ServerReply) (c : ClientId) : Decidable (b.Counts reply c) :=
  inferInstanceAs (Decidable (_ ∧ _ ∧ _))

/-- The record of the service after a result. -/
def withReply (record : ServiceRecord nmr) (c : ClientId) (v : Int32) : ServiceRecord nmr :=
  { record with requestRecords := appendResult c v record.requestRecords }

/-- The record of the service after an answer. -/
def withoutClient (record : ServiceRecord nmr) (c : ClientId) : ServiceRecord nmr :=
  { record with requestRecords := deleteLoop c record.requestRecords }

/-- The broker after a result that decides nothing. -/
def counted (b : Broker nmr) (record : ServiceRecord nmr) (reply : ServerReply) (c : ClientId) :
    Broker nmr :=
  { b with db := b.db.insert reply.service (withReply record c reply.result) }

/-- The broker after a result that decides. -/
def decided (b : Broker nmr) (record : ServiceRecord nmr) (reply : ServerReply) (c : ClientId) :
    Broker nmr :=
  { b with db := b.db.insert reply.service (withoutClient (withReply record c reply.result) c) }

/-- A plain reply nobody waits for changes nothing. -/
theorem getResponse_unclaimed (hpong : reply.heartbeat = false)
    (hdup : reply.duplicated = false) {record : ServiceRecord nmr}
    (hrecord : b.db.servicesDb reply.service = some record)
    (hnone : ofClient c record.requestRecords = []) :
    getResponse everyone b index reply c = pure b := by
  have hpush := ServiceDatabase.pushResult_of_some hrecord c
  rw [appendResult_of_ofClient_nil hnone, lastOf_eq, hnone, List.getLast?_nil, Option.elim_none,
    ServiceDatabase.insert_eq_self hrecord] at hpush
  rw [getResponse, if_neg (by simp [hpong]), if_neg (by simp [hdup]), hpush, Outcome.pure_bind']
  exact if_neg (by omega)

/-- A plain reply to a client with a record, down to the vote over the client's last
record. -/
theorem getResponse_counted (hpong : reply.heartbeat = false) (hdup : reply.duplicated = false)
    {record : ServiceRecord nmr} (hrecord : b.db.servicesDb reply.service = some record)
    {last : RequestRecord}
    (hlast : (ofClient c record.requestRecords).getLast? = some last) :
    getResponse everyone b index reply c =
      if nmr.toNat / 2 < last.results.length + 1 then do
        let (ret, result) ← vote nmr (last.results ++ [reply.result]) none
        if 0 ≤ ret then do
          Outcome.tell (.router c ⟨.serviceAvailable, result⟩)
          pure (b.decided record reply c)
        else if last.results.length + 1 = nmr.toNat then do
          Outcome.tell (.router c ⟨.serviceNotReliable, result⟩)
          pure (b.decided record reply c)
        else pure (b.counted record reply c)
      else pure (b.counted record reply c) := by
  have hpush := ServiceDatabase.pushResult_of_some hrecord c
  have hlast' : lastOf c (appendResult c reply.result record.requestRecords) =
      some (withResult reply.result last) := by
    rw [lastOf_eq, ofClient_appendResult_self, List.getLast?_map, hlast]
    rfl
  have hstored : (b.db.insert reply.service (withReply record c reply.result)).servicesDb
      reply.service = some (withReply record c reply.result) := ServiceDatabase.insert_self ..
  have hresults : (b.db.insert reply.service (withReply record c reply.result)).getResult
      reply.service c = pure (last.results ++ [reply.result]) := by
    rw [ServiceDatabase.getResult_of_some hstored]
    simp only [withReply, hlast']
    rfl
  have hinsert : ∀ record' : ServiceRecord nmr,
      (b.db.insert reply.service (withReply record c reply.result)).insert reply.service record' =
        b.db.insert reply.service record' := by
    intro record'
    simp only [ServiceDatabase.insert]
    congr 1
    funext other
    split <;> rfl
  have hdelete : (b.db.insert reply.service (withReply record c reply.result)).deleteRequest
      reply.service c = pure (b.db.insert reply.service
        (withoutClient (withReply record c reply.result) c)) := by
    rw [ServiceDatabase.deleteRequest_of_some hstored, hinsert]
    rfl
  rw [hlast', Option.elim_some] at hpush
  change _ = pure (_, b.db.insert reply.service (withReply record c reply.result)) at hpush
  rw [getResponse, if_neg (by simp [hpong]), if_neg (by simp [hdup]), hpush, Outcome.pure_bind']
  have hlength : ((withResult reply.result last).results.length : Int) =
      ((last.results.length + 1 : ℕ) : Int) := by simp [withResult]
  simp only [hlength, Int.ofNat_lt, Int.ofNat_inj, hresults, Outcome.pure_bind', hdelete,
    sendRouter_everyone]
  rfl

/-- **Plain replies that count**, in the three ways in which the handler returns. -/
theorem getResponse_counted_ok (hpong : reply.heartbeat = false) (hdup : reply.duplicated = false)
    {record : ServiceRecord nmr} (hrecord : b.db.servicesDb reply.service = some record)
    (hpending : ofClient c record.requestRecords ≠ [])
    (h : (getResponse everyone b index reply c).result = .ok b') :
    b' = b.counted record reply c ∧ (getResponse everyone b index reply c).sent = [] ∨
      b' = b.decided record reply c ∧ ∃ response,
        (getResponse everyone b index reply c).sent = [.router c response] := by
  obtain ⟨last, hlast⟩ := Option.ne_none_iff_exists'.mp
    (mt List.getLast?_eq_none_iff.mp hpending)
  rw [getResponse_counted hpong hdup hrecord hlast] at h ⊢
  split at h
  · rename_i hmajority
    rw [if_pos hmajority]
    obtain ⟨⟨ret, result⟩, hvote, h⟩ := Outcome.bind_result_ok.mp h
    rw [Outcome.bind_sent_of_ok hvote, vote_sent, List.nil_append]
    dsimp only at h ⊢
    split_ifs at h ⊢
    · exact Or.inr ⟨(Except.ok.inj h).symm, _, rfl⟩
    · exact Or.inr ⟨(Except.ok.inj h).symm, _, rfl⟩
    · exact Or.inl ⟨(Except.ok.inj h).symm, rfl⟩
  · rename_i hmajority
    rw [if_neg hmajority]
    exact Or.inl ⟨(Except.ok.inj h).symm, rfl⟩

/-- **Plain replies** touch requests only. -/
theorem sameCopies_getResponse (hpong : reply.heartbeat = false) (hdup : reply.duplicated = false)
    (h : (getResponse everyone b index reply c).result = .ok b') :
    ∃ db, SameCopies b.db db ∧ b' = { b with db := db } := by
  cases hrecord : b.db.servicesDb reply.service with
  | none =>
      rw [getResponse, if_neg (by simp [hpong]), if_neg (by simp [hdup]),
        ServiceDatabase.pushResult, ServiceDatabase.lookup_of_none hrecord] at h
      cases h
  | some record =>
      by_cases hpending : ofClient c record.requestRecords = []
      · rw [getResponse_unclaimed hpong hdup hrecord hpending] at h
        exact ⟨b.db, SameCopies.refl _, (Except.ok.inj h).symm⟩
      · rcases getResponse_counted_ok hpong hdup hrecord hpending h with ⟨rfl, -⟩ | ⟨rfl, -⟩
        · exact ⟨(b.counted record reply c).db, SameCopies.insert hrecord rfl, rfl⟩
        · exact ⟨(b.decided record reply c).db, SameCopies.insert hrecord rfl, rfl⟩

/-- **What a reply writes**: the pongs and the pending requests of the service it names. -/
theorem getResponse_writes (h : (getResponse everyone b index reply c).result = .ok b') :
    b' = b ∨ ∃ record newPong records, b.db.servicesDb reply.service = some record ∧
      b' = { b with
        db := b.db.insert reply.service
          { record with newPong := newPong, requestRecords := records } } := by
  by_cases hpong : reply.heartbeat = true
  · obtain ⟨record, hrecord, hid, rfl, -⟩ := getResponse_pong_ok hpong h
    exact .inr ⟨record, _, record.requestRecords, hrecord, rfl⟩
  rw [Bool.not_eq_true] at hpong
  by_cases hdup : reply.duplicated = true
  · rw [getResponse_duplicated hpong hdup] at h
    exact .inl (Except.ok.inj h).symm
  rw [Bool.not_eq_true] at hdup
  cases hrecord : b.db.servicesDb reply.service with
  | none =>
      rw [getResponse, if_neg (by simp [hpong]), if_neg (by simp [hdup]),
        ServiceDatabase.pushResult, ServiceDatabase.lookup_of_none hrecord] at h
      cases h
  | some record =>
      by_cases hpending : ofClient c record.requestRecords = []
      · rw [getResponse_unclaimed hpong hdup hrecord hpending] at h
        exact .inl (Except.ok.inj h).symm
      · rcases getResponse_counted_ok hpong hdup hrecord hpending h with ⟨rfl, -⟩ | ⟨rfl, -⟩
        · exact .inr ⟨record, record.newPong, _, rfl, rfl⟩
        · exact .inr ⟨record, record.newPong, _, rfl, rfl⟩

/-- A reply changes no record but that of the service it names. -/
theorem getResponse_of_ne (h : (getResponse everyone b index reply c).result = .ok b')
    {other : ServiceType} (hne : other ≠ reply.service) :
    b'.db.servicesDb other = b.db.servicesDb other := by
  rcases getResponse_writes h with rfl | ⟨record, newPong, records, -, rfl⟩
  · rfl
  · exact ServiceDatabase.insert_of_ne b.db hne _

/-! ## Heartbeats -/

/-- The position's heartbeat is due. -/
def Due (b : Broker nmr) (i : ℕ) (now : Timespec) : Prop :=
  ∃ deadline, b.timeout[i]? = some deadline ∧ timeCmp now deadline = 1

theorem heartbeat_of_not_due {i : ℕ} {now later : Timespec} (h : ¬ b.Due i now) :
    b.heartbeat i now later = pure b := by
  unfold heartbeat
  split
  · rfl
  · rename_i deadline hdeadline
    exact if_neg fun hcmp => h ⟨deadline, hdeadline, hcmp⟩

theorem heartbeat_of_due {i : ℕ} {now later : Timespec} (h : b.Due i now) {service : ServiceType}
    (hservice : b.availableServices[i]? = some service) :
    b.heartbeat i now later = (do
      let db ← b.db.checkPong service
      { b with db := db }.pingServer (UInt8.ofNat i) service
      { b with db := db }.updateTimeout service later) := by
  obtain ⟨deadline, hdeadline, hcmp⟩ := h
  rw [heartbeat, hdeadline]
  dsimp only
  rw [if_pos hcmp, hservice]

/-- What `ping_server` sends. -/
def ping (seqId : UInt32) : ServiceModule := ⟨true, seqId, none⟩

theorem pingServer_ok {i : UInt8} {service : ServiceType} {u : Unit}
    (h : (b.pingServer i service).result = .ok u) :
    ∃ record counted countedRecord, b.db.servicesDb service = some record ∧
      b.availableServices[i.toNat]? = some counted ∧
      b.db.servicesDb counted = some countedRecord ∧
      (b.pingServer i service).sent = List.replicate countedRecord.numCopiesReliable.toNat
        (.dealer i.toNat pingEnvelope (ping record.seqIdPing)) := by
  unfold pingServer at h ⊢
  obtain ⟨seqId, hseq, h⟩ := Outcome.bind_result_ok.mp h
  cases hrecord : b.db.servicesDb service with
  | none =>
      rw [ServiceDatabase.getPingId, ServiceDatabase.lookup_of_none hrecord] at hseq
      cases hseq
  | some record =>
      rw [ServiceDatabase.getPingId_of_some hrecord, Outcome.pure_bind']
      rw [ServiceDatabase.getPingId_of_some hrecord] at hseq
      obtain rfl := Except.ok.inj hseq
      cases hcounted : b.availableServices[i.toNat]? with
      | none =>
          rw [hcounted] at h
          cases h
      | some counted =>
          rw [hcounted] at h
          dsimp only at h ⊢
          cases hother : b.db.servicesDb counted with
          | none =>
              rw [ServiceDatabase.getReliableCopies, ServiceDatabase.lookup_of_none hother] at h
              cases h
          | some countedRecord =>
              rw [ServiceDatabase.getReliableCopies_of_some hother, Outcome.pure_bind'] at h ⊢
              exact ⟨record, counted, countedRecord, rfl, rfl, hother, (sendCopies_ok h).2⟩

theorem mem_pingServer_sent {i : UInt8} {service : ServiceType} {output : Output}
    (h : output ∈ (b.pingServer i service).sent) :
    ∃ seqId, output = .dealer i.toNat pingEnvelope (ping seqId) := by
  unfold pingServer at h
  cases hrecord : b.db.servicesDb service with
  | none =>
      rw [ServiceDatabase.getPingId, ServiceDatabase.lookup_of_none hrecord] at h
      simp at h
  | some record =>
      rw [ServiceDatabase.getPingId_of_some hrecord, Outcome.pure_bind'] at h
      split at h
      · simp at h
      · rename_i counted hcounted
        cases hother : b.db.servicesDb counted with
        | none =>
            rw [ServiceDatabase.getReliableCopies, ServiceDatabase.lookup_of_none hother] at h
            simp at h
        | some countedRecord =>
            rw [ServiceDatabase.getReliableCopies_of_some hother, Outcome.pure_bind'] at h
            exact ⟨_, mem_sendCopies_sent h⟩

theorem length_pingServer_le {i : UInt8} {service counted : ServiceType}
    {record : ServiceRecord nmr} (hcounted : b.availableServices[i.toNat]? = some counted)
    (hrecord : b.db.servicesDb counted = some record) :
    (b.pingServer i service).sent.length ≤ record.numCopiesReliable.toNat := by
  unfold pingServer
  cases hpinged : b.db.servicesDb service with
  | none =>
      rw [ServiceDatabase.getPingId, ServiceDatabase.lookup_of_none hpinged]
      exact Nat.zero_le _
  | some pinged =>
      rw [ServiceDatabase.getPingId_of_some hpinged, Outcome.pure_bind', hcounted]
      dsimp only
      rw [ServiceDatabase.getReliableCopies_of_some hrecord, Outcome.pure_bind']
      exact length_sendCopies_le ..

/-- **Heartbeats that are due.** -/
theorem heartbeat_ok {i : ℕ} {now later : Timespec} (hdue : b.Due i now)
    (h : (b.heartbeat i now later).result = .ok b') :
    ∃ service record, b.availableServices[i]? = some service ∧
      b.db.servicesDb service = some record ∧
      b' = { b with
        db := b.db.insert service record.checkPong
        timeout := b.timeout.set (b.availableServices.idxOf service)
          (timeAddMs later heartbeatInterval) } ∧
      (b.heartbeat i now later).sent =
        ({ b with db := b.db.insert service record.checkPong }.pingServer
          (UInt8.ofNat i) service).sent ∧
      ∃ u, ({ b with db := b.db.insert service record.checkPong }.pingServer
          (UInt8.ofNat i) service).result = .ok u := by
  obtain ⟨deadline, hdeadline, hcmp⟩ := id hdue
  cases hservice : b.availableServices[i]? with
  | none =>
      rw [heartbeat, hdeadline] at h
      dsimp only at h
      rw [if_pos hcmp, hservice] at h
      cases h
  | some service =>
      rw [heartbeat_of_due hdue hservice] at h ⊢
      cases hrecord : b.db.servicesDb service with
      | none =>
          rw [ServiceDatabase.checkPong, hrecord] at h
          cases h
      | some record =>
          rw [ServiceDatabase.checkPong_of_some hrecord, Outcome.pure_bind'] at h ⊢
          obtain ⟨u, hu, h⟩ := Outcome.bind_result_ok.mp h
          obtain ⟨-, rfl⟩ := updateTimeout_ok h
          refine ⟨service, record, rfl, hrecord, rfl, ?_, u, hu⟩
          rw [Outcome.bind_sent_of_ok hu, updateTimeout_sent, List.append_nil]

theorem mem_heartbeat_sent {i : ℕ} {now later : Timespec} {output : Output}
    (h : output ∈ (b.heartbeat i now later).sent) :
    ∃ seqId, output = .dealer (UInt8.ofNat i).toNat pingEnvelope (ping seqId) := by
  by_cases hdue : b.Due i now
  · cases hservice : b.availableServices[i]? with
    | none =>
        obtain ⟨deadline, hdeadline, hcmp⟩ := hdue
        rw [heartbeat, hdeadline] at h
        dsimp only at h
        rw [if_pos hcmp, hservice] at h
        simp at h
    | some service =>
        rw [heartbeat_of_due hdue hservice, Outcome.mem_bind_sent] at h
        rcases h with h | ⟨db, -, h⟩
        · unfold ServiceDatabase.checkPong at h
          split at h <;> simp at h
        · rw [Outcome.mem_bind_sent] at h
          rcases h with h | ⟨_, -, h⟩
          · exact mem_pingServer_sent h
          · simp at h
  · rw [heartbeat_of_not_due hdue] at h
    simp at h

/-! ## Sweeps -/

theorem sameCopies_deleteRequest {db db' : ServiceDatabase nmr} {service : ServiceType}
    (h : (db.deleteRequest service c).result = .ok db') : SameCopies db db' := by
  cases hrecord : db.servicesDb service with
  | none =>
      rw [ServiceDatabase.deleteRequest, ServiceDatabase.lookup_of_none hrecord] at h
      cases h
  | some record =>
      rw [ServiceDatabase.deleteRequest_of_some hrecord] at h
      rw [← Except.ok.inj h]
      exact SameCopies.insert hrecord rfl

theorem sameCopies_sweepRecord {now : Timespec} {i : ℕ}
    {state state' : Option Int32 × ServiceDatabase nmr} {pending : RequestRecord}
    (h : (sweepRecord everyone now i state pending).result = .ok state') :
    SameCopies state.2 state'.2 := by
  unfold sweepRecord at h
  split at h
  · obtain ⟨⟨ret, result⟩, -, h⟩ := Outcome.bind_result_ok.mp h
    obtain ⟨-, -, h⟩ := Outcome.bind_result_ok.mp h
    obtain ⟨db, hdelete, h⟩ := Outcome.bind_result_ok.mp h
    rw [← Except.ok.inj h]
    exact sameCopies_deleteRequest hdelete
  · rw [← Except.ok.inj h]
    exact SameCopies.refl _

theorem sameCopies_sweepService {now : Timespec}
    {state state' : Option Int32 × ServiceDatabase nmr} {entry : ServiceType × ℕ}
    (h : (sweepService everyone now state entry).result = .ok state') :
    SameCopies state.2 state'.2 := by
  obtain ⟨records, -, h⟩ := Outcome.bind_result_ok.mp h
  refine Outcome.foldlM_invariant (P := fun t => SameCopies state.2 t.2)
    (fun s t record _ hs ht => hs.trans (sameCopies_sweepRecord ht)) (SameCopies.refl _) h

/-- **Sweeps** touch requests only. -/
theorem checkPendingRequests_ok {now : Timespec}
    (h : (checkPendingRequests everyone b now).result = .ok b') :
    ∃ db, SameCopies b.db db ∧ b' = { b with db := db } := by
  obtain ⟨⟨result, db⟩, hsweep, h⟩ := Outcome.bind_result_ok.mp h
  refine ⟨db, ?_, (Except.ok.inj h).symm⟩
  exact Outcome.foldlM_invariant (P := fun t => SameCopies b.db t.2)
    (fun s t entry _ hs ht => hs.trans (sameCopies_sweepService ht)) (SameCopies.refl _) hsweep

end Broker

end ReliableService
