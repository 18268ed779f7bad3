import ReliableService.Registration.Histories
import ReliableService.Registration.Redundancy

/-!
# What a registration is answered

`get_registration` answers with the port `push_registration` returns, unless it has to bind a
socket for the service and the port is taken: then `zmq` throws, nothing catches it, and there
is no answer.  The port is the one of the place of the service in the order of first
registrations (`ret_of_accepts`).
-/

namespace ReliableService.Broker

open ServiceRecord

/-- The place of a service in the order of first registrations, with the one that arrives. -/
def placeOf (history : List ServiceType) (service : ServiceType) : ℕ :=
  (started (service :: history)).idxOf service

/-- The number of ports from `DEALER_START_PORT` on. -/
def numPorts : ℕ := UInt16.size - dealerStartPort.toNat

/-- Up to there the ports do not come round. -/
theorem toNat_port {place : ℕ} (h : place < numPorts) :
    (dealerStartPort + UInt16.ofNat place).toNat = 6000 + place := by
  have hlt : place < 59536 := h
  rw [UInt16.toNat_add, UInt16.toNat_ofNat', dealerStartPort]
  simp only [UInt16.reduceToNat]
  omega

variable {nmr : UInt8} {b b' : Broker nmr} {history : List ServiceType} {service : ServiceType}
  {rm : RegistrationModule} {now : Timespec} {moments : List Moment}

/-- The port a registration is answered with. -/
def answer (b : Broker nmr) (rm : RegistrationModule) : UInt16 :=
  (b.db.pushRegistration rm b.availableDealerPort).ret

/-- A bind to this port throws. -/
def Taken (b : Broker nmr) (port : UInt16) : Prop :=
  port ≠ 0 ∧ port ∈ b.portRouter :: b.portReg :: brokerPongPort :: b.dealer

instance (b : Broker nmr) (port : UInt16) : Decidable (b.Taken port) :=
  inferInstanceAs (Decidable (_ ∧ _))

/-! ## One registration -/

theorem getRegistration_of_not_completes (h : ¬ b.Completes rm) (now : Timespec) :
    b.getRegistration rm now = ⟨[.reg (b.answer rm)], .ok (b.registered rm)⟩ := by
  rw [getRegistration_eq, if_neg h]
  rfl

theorem makeAvailable_of_free {port : UInt16} (h : ¬ b.Taken port) (service : ServiceType)
    (now : Timespec) :
    b.makeAvailable service port now = pure (b.opened service port now) := by
  unfold makeAvailable addDealer
  rw [if_neg]
  · rfl
  · exact h

theorem makeAvailable_of_taken {port : UInt16} (h : b.Taken port) (service : ServiceType)
    (now : Timespec) : b.makeAvailable service port now = Outcome.fail .addressInUse := by
  unfold makeAvailable addDealer
  rw [if_pos]
  · rfl
  · exact h

theorem getRegistration_of_free (h : b.Completes rm) (hfree : ¬ b.Taken (b.answer rm))
    (now : Timespec) :
    b.getRegistration rm now =
      ⟨[.reg (b.answer rm)], .ok ((b.registered rm).opened rm.service (b.answer rm) now)⟩ := by
  have hfree' : ¬ (b.registered rm).Taken (b.answer rm) := hfree
  rw [getRegistration_eq, if_pos h, ← answer, makeAvailable_of_free hfree']
  rfl

theorem getRegistration_of_taken (h : b.Completes rm) (htaken : b.Taken (b.answer rm))
    (now : Timespec) : b.getRegistration rm now = ⟨[], .error .addressInUse⟩ := by
  have htaken' : (b.registered rm).Taken (b.answer rm) := htaken
  rw [getRegistration_eq, if_pos h, ← answer, makeAvailable_of_taken htaken']
  rfl

/-- A registration that returns is answered. -/
theorem sent_of_getRegistration_ok (h : (b.getRegistration rm now).result = .ok b') :
    (b.getRegistration rm now).sent = [.reg (b.answer rm)] := by
  by_cases hcompletes : b.Completes rm
  · by_cases htaken : b.Taken (b.answer rm)
    · rw [getRegistration_of_taken hcompletes htaken] at h
      cases h
    · rw [getRegistration_of_free hcompletes htaken]
  · rw [getRegistration_of_not_completes hcompletes]

/-- **The port of an accepted registration.** -/
theorem ret_of_accepts (h : b.Numbered (started history)) (haccepts : b.Accepts rm.service) :
    b.answer rm = dealerStartPort + UInt16.ofNat (placeOf history rm.service) := by
  unfold answer ServiceDatabase.pushRegistration placeOf
  unfold Accepts at haccepts
  cases hrecord : b.db.servicesDb rm.service with
  | none =>
      have hnew := (h.none_iff rm.service).mp hrecord
      rw [started_cons_of_notMem (mt mem_started.mpr hnew), List.idxOf_append_of_notMem hnew,
        List.idxOf_cons_self, Nat.add_zero]
      exact h.next
  | some record =>
      rw [hrecord] at haccepts
      have hregister : record.register = some _ := register_eq_some.mpr ⟨haccepts, rfl⟩
      dsimp only
      rw [hregister, started_cons_of_mem (mem_started.mp (h.mem_of_some hrecord))]
      exact h.port rm.service record hrecord

/-- A registration is accepted while copies are missing, and the first one always is. -/
theorem Deployed.accepts_iff (h : b.Deployed history) (service : ServiceType) :
    b.Accepts service ↔ history.count service < max 1 nmr.toNat := by
  unfold Accepts
  cases hrecord : b.db.servicesDb service with
  | none =>
      rw [List.count_eq_zero_of_not_mem ((h.none_iff service).mp hrecord)]
      exact iff_of_true trivial (by omega)
  | some record =>
      have hpos : 1 ≤ history.count service := List.count_pos_iff.mpr (h.mem_of_some hrecord)
      have hcount := (h.recorded service record hrecord).count
      dsimp only
      rw [UInt8.lt_iff_toNat_lt]
      omega

/-- A refused registration leaves everything as it was. -/
theorem getRegistration_of_not_accepts (h : ¬ b.Accepts rm.service) (now : Timespec) :
    b.getRegistration rm now = ⟨[.reg regFail], .ok b⟩ := by
  unfold Accepts at h
  cases hrecord : b.db.servicesDb rm.service with
  | none =>
      rw [hrecord] at h
      exact absurd trivial h
  | some record =>
      rw [hrecord] at h
      have hrefused : record.register = none := register_eq_none.mpr (UInt8.not_lt.mp h)
      have hpush : b.db.pushRegistration rm b.availableDealerPort =
          ⟨b.db, b.availableDealerPort, false, regFail⟩ := by
        unfold ServiceDatabase.pushRegistration
        rw [hrecord]
        dsimp only
        rw [hrefused]
      rw [getRegistration_of_not_completes (registered_db_of_refused hrecord hrefused).2, answer,
        registered, hpush]

/-! ## Histories and prefixes -/

theorem registrationHistory_append (before rest : List Moment) :
    registrationHistory (before ++ rest) =
      registrationHistory rest ++ registrationHistory before := by
  unfold registrationHistory
  rw [List.filterMap_append, List.reverse_append]

/-- A service keeps its place in the order of first registrations. -/
theorem idxOf_started_append (later : List ServiceType) (h : service ∈ history) :
    (started (later ++ history)).idxOf service = (started history).idxOf service := by
  induction later with
  | nil => rfl
  | cons first later ih =>
      rw [List.cons_append, idxOf_started_of_mem (List.mem_append_right later h), ih]

/-- The place a registration finds is the place its service has in the end. -/
theorem idxOf_started_of_isPrefix {before : List Moment} {connected : ClientId → Bool}
    (h : before ++ [⟨connected, .registration rm now⟩] <+: moments) :
    rm.service ∈ registrationHistory moments ∧
      (started (registrationHistory moments)).idxOf rm.service =
        placeOf (registrationHistory before) rm.service := by
  obtain ⟨rest, rfl⟩ := h
  rw [registrationHistory_append, registrationHistory_concat]
  refine ⟨List.mem_append_right _ List.mem_cons_self, ?_⟩
  exact idxOf_started_append _ List.mem_cons_self

/-- The first registration of a service. -/
theorem exists_first_registration (h : service ∈ registrationHistory moments) :
    ∃ before connected rm now, before ++ [⟨connected, .registration rm now⟩] <+: moments ∧
      rm.service = service ∧ service ∉ registrationHistory before := by
  induction moments using List.reverseRecOn with
  | nil => simp [registrationHistory] at h
  | append_singleton before moment ih =>
      by_cases hbefore : service ∈ registrationHistory before
      · obtain ⟨first, connected, rm, now, hpre, hself, hnew⟩ := ih hbefore
        exact ⟨first, connected, rm, now, hpre.trans (List.prefix_append ..), hself, hnew⟩
      · rw [registrationHistory_concat, List.mem_append] at h
        have hregisters := h.resolve_right hbefore
        obtain ⟨connected, event⟩ := moment
        cases event with
        | registration rm now =>
            refine ⟨before, connected, rm, now, List.prefix_rfl, ?_, hbefore⟩
            simpa [Event.registers, eq_comm] using hregisters
        | request c request now later => simp [Event.registers] at hregisters
        | response index reply c => simp [Event.registers] at hregisters
        | heartbeat i now later => simp [Event.registers] at hregisters
        | sweep now => simp [Event.registers] at hregisters

/-- A run that returns has returned from each of its calls. -/
theorem exists_run_of_isPrefix {before : List Moment} (hpre : before <+: moments)
    (hrun : (b.run moments).result = .ok b') : ∃ t, (b.run before).result = .ok t := by
  obtain ⟨rest, rfl⟩ := hpre
  rw [run, List.foldlM_append, Outcome.bind_result_ok] at hrun
  obtain ⟨t, ht, -⟩ := hrun
  exact ⟨t, ht⟩

/-- **The first registration of a service** is accepted, and it takes the place the service
keeps. -/
theorem exists_first_reached {portRouter portReg : UInt16} {b : Broker nmr}
    (hrun : ((init portRouter portReg : Broker nmr).run moments).result = .ok b)
    (hmem : service ∈ registrationHistory moments) :
    ∃ before connected rm now, ∃ t : Broker nmr,
      before ++ [⟨connected, .registration rm now⟩] <+: moments ∧
      ((init portRouter portReg : Broker nmr).run before).result = .ok t ∧
      (∃ t', (t.getRegistration rm now).result = .ok t') ∧ rm.service = service ∧
      service ∉ registrationHistory before ∧ t.Accepts service ∧
      placeOf (registrationHistory before) service =
        (started (registrationHistory moments)).idxOf service := by
  obtain ⟨before, connected, rm, now, hpre, rfl, hnew⟩ := exists_first_registration hmem
  obtain ⟨after, hafter⟩ := exists_run_of_isPrefix hpre hrun
  obtain ⟨t, ht, hok⟩ := Outcome.foldlM_concat_ok.mp hafter
  refine ⟨before, connected, rm, now, t, hpre, ht, ⟨after, hok⟩, rfl, hnew, ?_,
    (idxOf_started_of_isPrefix hpre).2.symm⟩
  rw [Accepts, ((numbered_placed_run ht).1.none_iff rm.service).mpr (mt mem_started.mp hnew)]
  trivial

/-- One registration after the other for these services. -/
def registering (services : List ServiceType) : List Moment :=
  services.map fun service => ⟨everyone, .registration ⟨"pippo", service⟩ ⟨0, 0⟩⟩

theorem registrationHistory_registering (services : List ServiceType) :
    registrationHistory (registering services) = services.reverse := by
  unfold registrationHistory registering
  rw [List.filterMap_map]
  exact congrArg List.reverse List.filterMap_some

end ReliableService.Broker
