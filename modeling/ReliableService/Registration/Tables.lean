import ReliableService.Clients.Disconnect

/-!
# The broker's tables

`available_services`, `dealer` and `timeout` are three vectors that grow together, in
`get_registration` and nowhere else, and never shrink.  `Tabled` is what holds of them in
every state a run reaches.  It says nothing about `dealer_skt_index`, which is assigned at
a different moment.

`handle_cases` is the step lemma behind it, in the form the other modules of this chapter
use: a call is either a registration, or it leaves the three vectors and every field of
the registration side of the database alone.
-/

namespace ReliableService

open ServiceRecord

variable {nmr : UInt8}

/-- What a registration has put into a record and only a registration or `check_pong`
changes. -/
structure SameRegistrations (b b' : Broker nmr) : Prop where
  available_eq : b'.availableServices = b.availableServices
  dealer_eq : b'.dealer = b.dealer
  timeout_length : b'.timeout.length = b.timeout.length
  next_eq : b'.db.nextDealerSktIndex = b.db.nextDealerSktIndex
  none_iff : ∀ service, b'.db.servicesDb service = none ↔ b.db.servicesDb service = none
  record_eq : ∀ service record', b'.db.servicesDb service = some record' →
    ∃ record, b.db.servicesDb service = some record ∧
      record'.dealerSocket = record.dealerSocket ∧
      record'.dealerSktIndex = record.dealerSktIndex ∧
      (service ∉ b.availableServices →
        record'.numCopiesRegistered = record.numCopiesRegistered)

namespace Broker

variable {b b' : Broker nmr}

theorem sameRegistrations_of_sameCopies {db : ServiceDatabase nmr} {timeout : List Timespec}
    (h : SameCopies b.db db) (htimeout : timeout.length = b.timeout.length) :
    SameRegistrations b { b with db := db, timeout := timeout } where
  available_eq := rfl
  dealer_eq := rfl
  timeout_length := htimeout
  next_eq := h.next_eq
  none_iff _ := h.eq_none_iff
  record_eq := by
    intro service record' hrecord'
    obtain ⟨record, hrecord, heq⟩ := h.symm.exists_of_some hrecord'
    refine ⟨record, hrecord, ?_, ?_, ?_⟩
    · exact (congrArg dealerSocket heq).symm
    · exact (congrArg dealerSktIndex heq).symm
    · intro _
      exact (congrArg numCopiesRegistered heq).symm

/-- A record that is written back with other copies. -/
theorem sameRegistrations_insert {service : ServiceType} {record record' : ServiceRecord nmr}
    {timeout : List Timespec} (hrecord : b.db.servicesDb service = some record)
    (hsocket : record'.dealerSocket = record.dealerSocket)
    (hindex : record'.dealerSktIndex = record.dealerSktIndex)
    (hcount : service ∉ b.availableServices →
      record'.numCopiesRegistered = record.numCopiesRegistered)
    (htimeout : timeout.length = b.timeout.length) :
    SameRegistrations b { b with db := b.db.insert service record', timeout := timeout } where
  available_eq := rfl
  dealer_eq := rfl
  timeout_length := htimeout
  next_eq := rfl
  none_iff other := by
    by_cases hother : other = service
    · simp [hother, hrecord]
    · rw [ServiceDatabase.insert_of_ne b.db hother]
  record_eq := by
    intro other found hfound
    by_cases hother : other = service
    · subst hother
      rw [ServiceDatabase.insert_self, Option.some.injEq] at hfound
      exact ⟨record, hrecord, hfound ▸ hsocket, hfound ▸ hindex, fun h => hfound ▸ hcount h⟩
    · rw [ServiceDatabase.insert_of_ne b.db hother] at hfound
      exact ⟨found, hfound, rfl, rfl, fun _ => rfl⟩

theorem sameRegistrations_refl (b : Broker nmr) : SameRegistrations b b where
  available_eq := rfl
  dealer_eq := rfl
  timeout_length := rfl
  next_eq := rfl
  none_iff _ := Iff.rfl
  record_eq _ record' h := ⟨record', h, rfl, rfl, fun _ => rfl⟩

/-- **A call that is no registration** leaves the registration side alone. -/
theorem handle_keeps {connected : ClientId → Bool} {event : Event}
    (hevent : ∀ rm now, event ≠ .registration rm now)
    (h : (b.handle connected event).result = .ok b') : SameRegistrations b b' := by
  rw [(handle_ok_everyone h).1] at h
  cases event with
  | registration rm now => exact absurd rfl (hevent rm now)
  | request c request now later =>
      change (getRequest everyone b c request now later).result = .ok b' at h
      cases hrecord : b.db.servicesDb request.service with
      | none =>
          rw [getRequest_of_none hrecord] at h
          rw [← Except.ok.inj h]
          exact sameRegistrations_refl b
      | some record =>
          obtain ⟨-, -, -, rfl⟩ := getRequest_ok hrecord h
          exact sameRegistrations_of_sameCopies (sameCopies_filed hrecord c now) (by simp)
  | response index reply c =>
      change (getResponse everyone b index reply c).result = .ok b' at h
      rcases getResponse_writes h with rfl | ⟨record, newPong, records, hrecord, rfl⟩
      · exact sameRegistrations_refl b'
      · exact sameRegistrations_insert hrecord rfl rfl (fun _ => rfl) rfl
  | heartbeat i now later =>
      change (b.heartbeat i now later).result = .ok b' at h
      by_cases hdue : b.Due i now
      · obtain ⟨service, record, hservice, hrecord, rfl, -⟩ := heartbeat_ok hdue h
        exact sameRegistrations_insert hrecord rfl rfl
          (fun hnot => absurd (List.mem_of_getElem? hservice) hnot) (by simp)
      · rw [heartbeat_of_not_due hdue] at h
        rw [← Except.ok.inj h]
        exact sameRegistrations_refl b
  | sweep now =>
      change (checkPendingRequests everyone b now).result = .ok b' at h
      obtain ⟨db, hsame, rfl⟩ := checkPendingRequests_ok h
      exact sameRegistrations_of_sameCopies hsame rfl

/-- A call that is no registration writes the database and the deadlines only. -/
theorem handle_writes {connected : ClientId → Bool} {event : Event}
    (hevent : ∀ rm now, event ≠ .registration rm now)
    (h : (b.handle connected event).result = .ok b') :
    b' = { b with db := b'.db, timeout := b'.timeout } := by
  rw [(handle_ok_everyone h).1] at h
  cases event with
  | registration rm now => exact absurd rfl (hevent rm now)
  | request c request now later =>
      change (getRequest everyone b c request now later).result = .ok b' at h
      cases hrecord : b.db.servicesDb request.service with
      | none =>
          rw [getRequest_of_none hrecord] at h
          rw [← Except.ok.inj h]
      | some record =>
          obtain ⟨-, -, -, rfl⟩ := getRequest_ok hrecord h
          rfl
  | response index reply c =>
      change (getResponse everyone b index reply c).result = .ok b' at h
      rcases getResponse_writes h with rfl | ⟨record, newPong, records, -, rfl⟩
      · rfl
      · rfl
  | heartbeat i now later =>
      change (b.heartbeat i now later).result = .ok b' at h
      by_cases hdue : b.Due i now
      · obtain ⟨service, record, -, -, rfl, -⟩ := heartbeat_ok hdue h
        rfl
      · rw [heartbeat_of_not_due hdue] at h
        rw [← Except.ok.inj h]
  | sweep now =>
      change (checkPendingRequests everyone b now).result = .ok b' at h
      obtain ⟨db, -, rfl⟩ := checkPendingRequests_ok h
      rfl

/-! ## One registration -/

theorem handle_registration_ok {connected : ClientId → Bool} {rm : RegistrationModule}
    {now : Timespec} (h : (b.handle connected (.registration rm now)).result = .ok b') :
    b' = if b.Completes rm then (b.registered rm).opened rm.service
        (b.db.pushRegistration rm b.availableDealerPort).ret now
      else b.registered rm :=
  getRegistration_ok (b := b) h

theorem handle_registration_db {connected : ClientId → Bool} {rm : RegistrationModule}
    {now : Timespec} (h : (b.handle connected (.registration rm now)).result = .ok b') :
    b'.db = (b.registered rm).db := by
  rw [handle_registration_ok h]
  split <;> rfl

/-- **Every call** is a registration, or it leaves the registration side alone. -/
theorem handle_cases {connected : ClientId → Bool} {event : Event}
    (h : (b.handle connected event).result = .ok b') :
    (∃ rm now, event = .registration rm now) ∨
      SameRegistrations b b' ∧ b' = { b with db := b'.db, timeout := b'.timeout } := by
  by_cases hevent : ∃ rm now, event = .registration rm now
  · exact .inl hevent
  · have hother : ∀ rm now, event ≠ .registration rm now := fun rm now heq =>
      hevent ⟨rm, now, heq⟩
    exact .inr ⟨handle_keeps hother h, handle_writes hother h⟩

/-- The database after the first registration of a service. -/
theorem registered_db_of_none {rm : RegistrationModule}
    (h : b.db.servicesDb rm.service = none) :
    (b.registered rm).db = { b.db.insert rm.service
        (ServiceRecord.init rm.signature b.availableDealerPort b.db.nextDealerSktIndex) with
      nextDealerSktIndex := b.db.nextDealerSktIndex + 1 } ∧ ¬ b.Completes rm := by
  unfold registered Completes ServiceDatabase.pushRegistration
  rw [h]
  exact ⟨rfl, fun hcompletes => by simp at hcompletes⟩

theorem registered_db_of_refused {rm : RegistrationModule} {record : ServiceRecord nmr}
    (h : b.db.servicesDb rm.service = some record) (hrefused : record.register = none) :
    (b.registered rm).db = b.db ∧ ¬ b.Completes rm := by
  unfold registered Completes ServiceDatabase.pushRegistration
  rw [h]
  dsimp only
  rw [hrefused]
  exact ⟨rfl, fun hcompletes => by simp at hcompletes⟩

theorem registered_db_of_accepted {rm : RegistrationModule} {record record' : ServiceRecord nmr}
    (h : b.db.servicesDb rm.service = some record) (haccepted : record.register = some record') :
    (b.registered rm).db = b.db.insert rm.service record' ∧
      (b.Completes rm ↔ record'.numCopiesRegistered = nmr ∧ rm.service ∉ b.availableServices) ∧
      (b.db.pushRegistration rm b.availableDealerPort).ret = record'.dealerSocket := by
  unfold registered Completes ServiceDatabase.pushRegistration
  rw [h]
  dsimp only
  rw [haccepted]
  exact ⟨rfl, by simp, rfl⟩

/-- After a registration its service has a record, and every other service the one it had. -/
theorem registered_servicesDb_ne {rm : RegistrationModule} {service : ServiceType}
    (hne : service ≠ rm.service) :
    (b.registered rm).db.servicesDb service = b.db.servicesDb service := by
  cases hrecord : b.db.servicesDb rm.service with
  | none =>
      rw [(registered_db_of_none hrecord).1]
      exact ServiceDatabase.insert_of_ne b.db hne _
  | some record =>
      cases hregister : record.register with
      | none => rw [(registered_db_of_refused hrecord hregister).1]
      | some record' =>
          rw [(registered_db_of_accepted hrecord hregister).1]
          exact ServiceDatabase.insert_of_ne b.db hne _

theorem registered_servicesDb_self (rm : RegistrationModule) :
    (b.registered rm).db.servicesDb rm.service ≠ none := by
  cases hrecord : b.db.servicesDb rm.service with
  | none =>
      rw [(registered_db_of_none hrecord).1]
      simp [ServiceDatabase.insert]
  | some record =>
      cases hregister : record.register with
      | none =>
          rw [(registered_db_of_refused hrecord hregister).1, hrecord]
          simp
      | some record' =>
          rw [(registered_db_of_accepted hrecord hregister).1]
          simp

/-! ## The tables along a run -/

/-- The three vectors are in step, and every available service is registered. -/
structure Tabled (b : Broker nmr) : Prop where
  nodup : b.availableServices.Nodup
  dealer_length : b.dealer.length = b.availableServices.length
  timeout_length : b.timeout.length = b.availableServices.length
  registered : ∀ service ∈ b.availableServices, b.db.servicesDb service ≠ none

theorem tabled_init (portRouter portReg : UInt16) :
    (init portRouter portReg : Broker nmr).Tabled where
  nodup := List.nodup_nil
  dealer_length := rfl
  timeout_length := rfl
  registered := by simp [init]

/-- **One call keeps the tables.** -/
theorem Tabled.handle (h : b.Tabled) {connected : ClientId → Bool} {event : Event}
    (hb' : (b.handle connected event).result = .ok b') : b'.Tabled := by
  rcases handle_cases hb' with ⟨rm, now, rfl⟩ | ⟨hsame, -⟩
  · have hregistered : ∀ service, b.db.servicesDb service ≠ none ∨ service = rm.service →
        (b.registered rm).db.servicesDb service ≠ none := by
      intro service hservice
      by_cases hself : service = rm.service
      · rw [hself]
        exact registered_servicesDb_self rm
      · rw [registered_servicesDb_ne hself]
        exact hservice.resolve_right hself
    rw [handle_registration_ok hb']
    split
    · rename_i hcompletes
      refine ⟨?_, ?_, ?_, ?_⟩
      · refine List.nodup_append.mpr ⟨h.nodup, List.nodup_singleton _, ?_⟩
        intro s hs s' hs'
        rw [List.mem_singleton.mp hs']
        exact fun heq => hcompletes.2 (heq ▸ hs)
      · simp [opened, Broker.registered, h.dealer_length]
      · simp [opened, Broker.registered, h.timeout_length]
      · intro service hmem
        rcases List.mem_append.mp hmem with hmem | hmem
        · exact hregistered service (Or.inl (h.registered service hmem))
        · exact hregistered service (Or.inr (List.mem_singleton.mp hmem))
    · exact ⟨h.nodup, h.dealer_length, h.timeout_length, fun service hmem =>
        hregistered service (Or.inl (h.registered service hmem))⟩
  · refine ⟨?_, ?_, ?_, ?_⟩
    · rw [hsame.available_eq]
      exact h.nodup
    · rw [hsame.dealer_eq, hsame.available_eq, h.dealer_length]
    · rw [hsame.timeout_length, hsame.available_eq, h.timeout_length]
    · intro service hmem
      rw [hsame.available_eq] at hmem
      exact mt (hsame.none_iff service).mp (h.registered service hmem)

/-- **The tables hold in every reachable state**, whichever clients have gone away. -/
theorem tabled_run {portRouter portReg : UInt16} {moments : List Moment}
    (h : ((init portRouter portReg : Broker nmr).run moments).result = .ok b) : b.Tabled :=
  Outcome.foldlM_invariant (P := Tabled) (fun _ _ _ _ hs ht => hs.handle ht)
    (tabled_init portRouter portReg) h

end Broker

end ReliableService
