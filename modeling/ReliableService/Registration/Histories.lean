import ReliableService.Copies.Traces
import ReliableService.Registration.DealerIndex
import ReliableService.Registration.Ports

/-!
# Reading the broker off its registrations

The registrations of a run, whatever else happens in it, determine which port and which socket
number every service has: those of its place in the order of first registrations
(`numbered_placed_run`).  As long as no copy is lost they determine the counters and
the available services as well (`deployed_run`), as they do in a run of registrations alone.
-/

namespace ReliableService

open ServiceRecord

/-- The service a call registers a copy of. -/
def Event.registers : Event → Option ServiceType
  | .registration rm _ => some rm.service
  | _ => none

/-- The services of the registrations of a run, latest first. -/
def registrationHistory (moments : List Moment) : List ServiceType :=
  (moments.filterMap fun moment => moment.event.registers).reverse

theorem registrationHistory_concat (before : List Moment) (moment : Moment) :
    registrationHistory (before ++ [moment]) =
      moment.event.registers.toList ++ registrationHistory before := by
  unfold registrationHistory
  rw [List.filterMap_append, List.reverse_append]
  cases h : moment.event.registers <;> simp [h]

namespace Broker

variable {nmr : UInt8} {b b' : Broker nmr} {known history : List ServiceType}
  {service : ServiceType} {record record' : ServiceRecord nmr} {rm : RegistrationModule}
  {connected : ClientId → Bool} {event : Event} {portRouter portReg : UInt16}
  {moments : List Moment}

/-- **Every call** is a registration, or it adds nothing to the history and leaves the
registration side alone. -/
theorem handle_cases_registers (h : (b.handle connected event).result = .ok b') :
    (∃ rm now, event = .registration rm now) ∨
      event.registers = none ∧ SameRegistrations b b' ∧
        b' = { b with db := b'.db, timeout := b'.timeout } := by
  by_cases hevent : ∃ rm now, event = .registration rm now
  · exact .inl hevent
  · have hother : ∀ rm now, event ≠ .registration rm now := fun rm now heq =>
      hevent ⟨rm, now, heq⟩
    refine .inr ⟨?_, handle_keeps hother h, handle_writes hother h⟩
    cases event with
    | registration rm now => exact absurd rfl (hother rm now)
    | request c request now later => rfl
    | response index reply c => rfl
    | heartbeat i now later => rfl
    | sweep now => rfl

/-! ## Ports and socket numbers -/

theorem Numbered.registered_started (h : b.Numbered (started history)) (rm : RegistrationModule) :
    (b.registered rm).Numbered (started (rm.service :: history)) := by
  cases hrecord : b.db.servicesDb rm.service with
  | none =>
      have hnew := mt mem_started.mpr ((h.none_iff rm.service).mp hrecord)
      rw [started_cons_of_notMem hnew]
      exact h.registered_of_none hrecord
  | some record =>
      rw [started_cons_of_mem (mem_started.mp (h.mem_of_some hrecord))]
      exact h.registered_of_some hrecord

/-- **Ports follow the registrations**, one call. -/
theorem Numbered.handle_started (h : b.Numbered (started history))
    (hb' : (b.handle connected event).result = .ok b') :
    b'.Numbered (started (event.registers.toList ++ history)) := by
  rcases handle_cases_registers hb' with ⟨rm, now, rfl⟩ | ⟨hnone, hsame, hwrites⟩
  · exact (h.registered_started rm).of_registered hb'
  · rw [hnone]
    refine h.of_same hsame ?_
    rw [hwrites]

/-- The socket numbers of the services, in the order of their first registrations. -/
structure Placed (b : Broker nmr) (known : List ServiceType) : Prop where
  next : b.db.nextDealerSktIndex = UInt16.ofNat known.length
  index : ∀ service record, b.db.servicesDb service = some record →
    record.dealerSktIndex = UInt16.ofNat (known.idxOf service)

/-- The first registration of a service takes the next number. -/
theorem Placed.registered_of_none (h : b.Placed known) (hknown : b.Numbered known)
    (hnone : b.db.servicesDb rm.service = none) :
    (b.registered rm).Placed (known ++ [rm.service]) := by
  have hnew := (hknown.none_iff rm.service).mp hnone
  have hdb := (registered_db_of_none hnone).1
  constructor
  · rw [hdb, List.length_append, List.length_singleton, UInt16.ofNat_add, ← h.next]
    rfl
  · intro service record hrecord
    by_cases hservice : service = rm.service
    · subst hservice
      rw [hdb] at hrecord
      have hinit := (ServiceDatabase.insert_self b.db rm.service _).symm.trans hrecord
      rw [← Option.some.inj hinit, List.idxOf_append_of_notMem hnew, List.idxOf_cons_self,
        Nat.add_zero]
      exact h.next
    · rw [registered_servicesDb_ne hservice] at hrecord
      rw [List.idxOf_append_of_mem (hknown.mem_of_some hrecord)]
      exact h.index service record hrecord

/-- A further one leaves the numbers alone. -/
theorem Placed.registered_of_some (h : b.Placed known)
    (hbefore : b.db.servicesDb rm.service = some record) : (b.registered rm).Placed known := by
  cases hregister : record.register with
  | none =>
      have hdb := (registered_db_of_refused hbefore hregister).1
      exact ⟨by rw [hdb, h.next], fun service record hrecord =>
        h.index service record (hdb ▸ hrecord)⟩
  | some after =>
      have hdb := (registered_db_of_accepted hbefore hregister).1
      obtain ⟨-, rfl⟩ := register_eq_some.mp hregister
      refine ⟨by rw [hdb]; exact h.next, fun service record' hrecord' => ?_⟩
      by_cases hservice : service = rm.service
      · subst hservice
        rw [hdb, ServiceDatabase.insert_self, Option.some.injEq] at hrecord'
        rw [← hrecord']
        exact h.index rm.service record hbefore
      · rw [registered_servicesDb_ne hservice] at hrecord'
        exact h.index service record' hrecord'

/-- **Socket numbers follow the registrations**, one call. -/
theorem Placed.handle_started (h : b.Placed (started history))
    (hknown : b.Numbered (started history)) (hb' : (b.handle connected event).result = .ok b') :
    b'.Placed (started (event.registers.toList ++ history)) := by
  rcases handle_cases_registers hb' with ⟨rm, now, rfl⟩ | ⟨hnone, hsame, -⟩
  · have hplaced : (b.registered rm).Placed (started (rm.service :: history)) := by
      cases hrecord : b.db.servicesDb rm.service with
      | none =>
          have hnew := mt mem_started.mpr ((hknown.none_iff rm.service).mp hrecord)
          rw [started_cons_of_notMem hnew]
          exact h.registered_of_none hknown hrecord
      | some record =>
          rw [started_cons_of_mem (mem_started.mp (hknown.mem_of_some hrecord))]
          exact h.registered_of_some hrecord
    have hdb := handle_registration_db hb'
    exact ⟨by rw [hdb]; exact hplaced.next, fun service record hrecord =>
      hplaced.index service record (hdb ▸ hrecord)⟩
  · rw [hnone]
    refine ⟨by rw [hsame.next_eq]; exact h.next, fun service record' hrecord' => ?_⟩
    obtain ⟨record, hrecord, -, hindex, -⟩ := hsame.record_eq service record' hrecord'
    rw [hindex]
    exact h.index service record hrecord

/-- **In every reachable state** the ports and the socket numbers are those of the order of first
registrations. -/
theorem numbered_placed_run
    (hrun : ((init portRouter portReg : Broker nmr).run moments).result = .ok b) :
    b.Numbered (started (registrationHistory moments)) ∧
      b.Placed (started (registrationHistory moments)) := by
  refine Outcome.foldlM_invariant_prefix
    (P := fun before (b : Broker nmr) => b.Numbered (started (registrationHistory before)) ∧
      b.Placed (started (registrationHistory before))) ?_ ?_ hrun
  · rintro before moment s t - ⟨hnumbered, hplaced⟩ ht
    rw [registrationHistory_concat]
    exact ⟨hnumbered.handle_started ht, hplaced.handle_started hnumbered ht⟩
  · exact ⟨numbered_init portRouter portReg, rfl, by simp [init, ServiceDatabase.init]⟩

/-! ## Runs that lose no copy -/

/-- The call declares no copy unreliable. -/
def Lossless (b : Broker nmr) (event : Event) : Prop :=
  ∀ service record, b.db.servicesDb service = some record →
    .check ∈ b.copyEvents service event → record.unreliableUnits = ∅

/-- No copy is lost in the run. -/
def LosslessRun (nmr : UInt8) (portRouter portReg : UInt16) (moments : List Moment) : Prop :=
  ∀ before moment (b : Broker nmr), before ++ [moment] <+: moments →
    ((init portRouter portReg : Broker nmr).run before).result = .ok b → b.Lossless moment.event

/-- Without a loss only registrations move the counter of a service. -/
theorem numCopies_of_lossless (hother : event.registers = none) (hlossless : b.Lossless event)
    (hb' : (b.handle connected event).result = .ok b')
    (hrecord : b.db.servicesDb service = some record)
    (hrecord' : b'.db.servicesDb service = some record') :
    record'.numCopiesRegistered = record.numCopiesRegistered := by
  rw [(handle_ok_everyone hb').1] at hb'
  obtain ⟨after, hafter, hsame⟩ := copies_of_handle hb' hrecord
  obtain rfl : after = record' := Option.some.inj (hafter.symm.trans hrecord')
  have hcount := congrArg numCopiesRegistered hsame
  change after.numCopiesRegistered = (record.afterEvents _).numCopiesRegistered at hcount
  rw [hcount]
  cases event with
  | registration rm now => cases hother
  | request c request now later => rfl
  | response index reply c =>
      rw [copyEvents]
      split_ifs <;> rfl
  | heartbeat i now later =>
      have hunits := hlossless service record hrecord
      rw [copyEvents] at hunits ⊢
      split
      · rename_i hchecked
        rw [if_pos hchecked] at hunits
        show record.numCopiesRegistered - UInt8.ofNat record.unreliableUnits.card = _
        rw [hunits (List.mem_singleton_self _), Finset.card_empty]
        exact UInt8.sub_zero _
      · rfl
  | sweep now => rfl

/-- A call that is no registration and loses no copy. -/
theorem Deployed.of_lossless (h : b.Deployed history) (hother : event.registers = none)
    (hlossless : b.Lossless event) (hb' : (b.handle connected event).result = .ok b') :
    b'.Deployed history := by
  rcases handle_cases hb' with ⟨rm, now, rfl⟩ | ⟨hsame, -⟩
  · cases hother
  · refine ⟨by rw [hsame.next_eq, h.next], fun service => ?_, fun service record' hrecord' => ?_,
      by rw [hsame.available_eq, h.available], Bound.handle h.socket h.tabled hb',
      h.tabled.handle hb'⟩
    · rw [hsame.none_iff]
      exact h.none_iff service
    · obtain ⟨record, hrecord, -, hindex, -⟩ := hsame.record_eq service record' hrecord'
      have hdescribed := h.recorded service record hrecord
      refine ⟨by rw [hindex, hdescribed.index], ?_⟩
      rw [numCopies_of_lossless hother hlossless hb' hrecord hrecord', hdescribed.count]

theorem Deployed.handle (h : b.Deployed history) (hlossless : b.Lossless event)
    (hb' : (b.handle connected event).result = .ok b') :
    b'.Deployed (event.registers.toList ++ history) := by
  cases hother : event.registers with
  | none => exact h.of_lossless hother hlossless hb'
  | some service =>
      rcases handle_cases_registers hb' with ⟨rm, now, rfl⟩ | ⟨hnone, -⟩
      · obtain rfl : rm.service = service := Option.some.inj hother
        exact h.registration hb'
      · rw [hnone] at hother
        cases hother

/-- **A run that loses no copy** is, as far as the registrations go, a run of registrations. -/
theorem deployed_run {before : List Moment} (hlossless : LosslessRun nmr portRouter portReg moments)
    (hpre : before <+: moments)
    (hrun : ((init portRouter portReg : Broker nmr).run before).result = .ok b) :
    b.Deployed (registrationHistory before) := by
  refine Outcome.foldlM_invariant_prefix
    (P := fun before (b : Broker nmr) => before <+: moments →
      b.Deployed (registrationHistory before)) ?_ ?_ hrun hpre
  · intro before moment s t hs hdeployed ht hpre
    rw [registrationHistory_concat]
    exact (hdeployed ((List.prefix_append ..).trans hpre)).handle
      (hlossless before moment s hpre hs) ht
  · exact fun _ => deployed_init portRouter portReg

end Broker

end ReliableService
