import ReliableService.Registration.Positions

/-!
# Ports

A broker hands out the ports from `DEALER_START_PORT` on, to services in the order in which
they first register with it (`Numbered`).  With at most `2 ^ 16` services no two have the same
port.  Nothing ties a port to a service but this order, and the next broker starts again.
-/

namespace ReliableService.Broker

open ServiceRecord

variable {nmr : UInt8} {b b' : Broker nmr} {known : List ServiceType} {service : ServiceType}
  {record : ServiceRecord nmr} {rm : RegistrationModule} {connected : ClientId → Bool}

/-- The services of this broker in the order of their first registrations, and their ports. -/
structure Numbered (b : Broker nmr) (known : List ServiceType) : Prop where
  nodup : known.Nodup
  none_iff : ∀ service, b.db.servicesDb service = none ↔ service ∉ known
  next : b.availableDealerPort = dealerStartPort + UInt16.ofNat known.length
  port : ∀ service record, b.db.servicesDb service = some record →
    record.dealerSocket = dealerStartPort + UInt16.ofNat (known.idxOf service)

theorem numbered_init (portRouter portReg : UInt16) :
    (init portRouter portReg : Broker nmr).Numbered [] where
  nodup := List.nodup_nil
  none_iff := by simp [init, ServiceDatabase.init]
  next := rfl
  port := by simp [init, ServiceDatabase.init]

theorem Numbered.mem_of_some (h : b.Numbered known)
    (hrecord : b.db.servicesDb service = some record) : service ∈ known := by
  by_contra hnot
  rw [(h.none_iff service).mpr hnot] at hrecord
  cases hrecord

/-- **Different services have different ports.** -/
theorem Numbered.port_inj (h : b.Numbered known) (hfew : known.length ≤ UInt16.size)
    {other : ServiceType} {record' : ServiceRecord nmr}
    (hrecord : b.db.servicesDb service = some record)
    (hrecord' : b.db.servicesDb other = some record')
    (hsame : record.dealerSocket = record'.dealerSocket) : service = other := by
  rw [h.port service record hrecord, h.port other record' hrecord', UInt16.add_right_inj,
    ← UInt16.toNat_inj, UInt16.toNat_ofNat', UInt16.toNat_ofNat'] at hsame
  have hmem := h.mem_of_some hrecord
  have hplace := List.idxOf_lt_length_of_mem hmem
  have hplace' := List.idxOf_lt_length_of_mem (h.mem_of_some hrecord')
  rw [Nat.mod_eq_of_lt (hplace.trans_le hfew), Nat.mod_eq_of_lt (hplace'.trans_le hfew)] at hsame
  exact (List.idxOf_inj hmem).mp hsame

/-! ## One call -/

/-- The first registration of a service takes the next port. -/
theorem Numbered.registered_of_none (h : b.Numbered known)
    (hnone : b.db.servicesDb rm.service = none) :
    (b.registered rm).Numbered (known ++ [rm.service]) := by
  have hnew := (h.none_iff rm.service).mp hnone
  have hdb := (registered_db_of_none hnone).1
  have hnext : (b.registered rm).availableDealerPort = b.availableDealerPort + 1 := by
    unfold registered ServiceDatabase.pushRegistration
    rw [hnone]
  constructor
  · exact List.nodup_append.mpr ⟨h.nodup, List.nodup_singleton _, by
      rintro a ha _ hmem rfl
      exact hnew (List.mem_singleton.mp hmem ▸ ha)⟩
  · intro service
    by_cases hservice : service = rm.service
    · rw [hservice]
      exact iff_of_false (registered_servicesDb_self rm) (by simp)
    · rw [registered_servicesDb_ne hservice, h.none_iff, List.mem_append, List.mem_singleton,
        not_or]
      exact ⟨fun hnot => ⟨hnot, hservice⟩, And.left⟩
  · rw [hnext, h.next, List.length_append, List.length_singleton, UInt16.ofNat_add,
      ← UInt16.add_assoc]
    rfl
  · intro service record hrecord
    by_cases hservice : service = rm.service
    · subst hservice
      rw [hdb] at hrecord
      have hinit := (ServiceDatabase.insert_self b.db rm.service _).symm.trans hrecord
      rw [← Option.some.inj hinit, List.idxOf_append_of_notMem hnew, List.idxOf_cons_self,
        Nat.add_zero]
      exact h.next
    · rw [registered_servicesDb_ne hservice] at hrecord
      rw [List.idxOf_append_of_mem (h.mem_of_some hrecord)]
      exact h.port service record hrecord

/-- A further one leaves the ports alone. -/
theorem Numbered.registered_of_some (h : b.Numbered known)
    (hbefore : b.db.servicesDb rm.service = some record) : (b.registered rm).Numbered known := by
  have hnext : (b.registered rm).availableDealerPort = b.availableDealerPort := by
    unfold registered ServiceDatabase.pushRegistration
    rw [hbefore]
    dsimp only
    split <;> rfl
  constructor
  · exact h.nodup
  · intro service
    by_cases hservice : service = rm.service
    · rw [hservice]
      exact iff_of_false (registered_servicesDb_self rm) (not_not_intro (h.mem_of_some hbefore))
    · rw [registered_servicesDb_ne hservice]
      exact h.none_iff service
  · rw [hnext]
    exact h.next
  · intro service record' hrecord'
    have hold : b.db.servicesDb service ≠ none := by
      by_cases hservice : service = rm.service
      · rw [hservice, hbefore]
        simp
      · rw [registered_servicesDb_ne hservice] at hrecord'
        rw [hrecord']
        simp
    obtain ⟨old, hold⟩ := Option.ne_none_iff_exists'.mp hold
    obtain ⟨found, hfound, hsocket⟩ := registered_dealerSocket rm hold
    obtain rfl : found = record' := Option.some.inj (hfound.symm.trans hrecord')
    rw [hsocket]
    exact h.port service old hold

theorem Numbered.registered (h : b.Numbered known) (rm : RegistrationModule) :
    ∃ known', (b.registered rm).Numbered known' ∧ known' ⊆ rm.service :: known := by
  cases hrecord : b.db.servicesDb rm.service with
  | none =>
      refine ⟨known ++ [rm.service], h.registered_of_none hrecord, fun service hmem => ?_⟩
      rcases List.mem_append.mp hmem with hmem | hmem
      · exact List.mem_cons_of_mem _ hmem
      · exact List.mem_singleton.mp hmem ▸ List.mem_cons_self
  | some record => exact ⟨known, h.registered_of_some hrecord, List.subset_cons_self _ _⟩

/-- A call that leaves the registration side alone leaves the numbers alone. -/
theorem Numbered.of_same (h : b.Numbered known) (hsame : SameRegistrations b b')
    (hport : b'.availableDealerPort = b.availableDealerPort) : b'.Numbered known where
  nodup := h.nodup
  none_iff service := by
    rw [hsame.none_iff]
    exact h.none_iff service
  next := by
    rw [hport]
    exact h.next
  port := by
    intro service record' hrecord'
    obtain ⟨record, hrecord, hsocket, -, -⟩ := hsame.record_eq service record' hrecord'
    rw [hsocket]
    exact h.port service record hrecord

/-- What else `get_registration` does has no part in the numbers. -/
theorem Numbered.of_registered (h : (b.registered rm).Numbered known) {now : Timespec}
    (hb' : (b.handle connected (.registration rm now)).result = .ok b') : b'.Numbered known := by
  rw [handle_registration_ok hb']
  split
  · exact ⟨h.nodup, h.none_iff, h.next, h.port⟩
  · exact h

/-- **One call** makes a new service known only by its registration. -/
theorem Numbered.handle (h : b.Numbered known) {event : Event}
    (hb' : (b.handle connected event).result = .ok b') :
    ∃ known', b'.Numbered known' ∧ ∀ service ∈ known', service ∈ known ∨
      ∃ rm now, event = .registration rm now ∧ service = rm.service := by
  rcases handle_cases hb' with ⟨rm, now, rfl⟩ | ⟨hsame, hwrites⟩
  · obtain ⟨known', hnumbered, hsubset⟩ := h.registered rm
    refine ⟨known', hnumbered.of_registered hb', fun service hmem => ?_⟩
    rcases List.mem_cons.mp (hsubset hmem) with heq | hold
    · exact .inr ⟨rm, now, rfl, heq⟩
    · exact .inl hold
  · refine ⟨known, h.of_same hsame ?_, fun service hmem => .inl hmem⟩
    rw [hwrites]

/-! ## The number of a socket -/

/-- The number of the socket of a service is not the position of another one. -/
def Indexed (b : Broker nmr) (service : ServiceType) : Prop :=
  ∀ index ∈ b.db.findRegistration service, ∀ other ∈ b.availableServices[index.toNat]?,
    other = service

instance (b : Broker nmr) (service : ServiceType) : Decidable (b.Indexed service) :=
  have (index : UInt16) :
      Decidable (∀ other ∈ b.availableServices[index.toNat]?, other = service) :=
    Option.decidableForallMem _
  Option.decidableForallMem _

/-! ## The port in the answer -/

/-- The port in the answer to a registration is that of the service. -/
theorem dealerSocket_of_reg {now : Timespec} {port : UInt16}
    (hsent : Output.reg port ∈ (b.getRegistration rm now).sent) (hport : port ≠ regFail) :
    ∃ record, (b.registered rm).db.servicesDb rm.service = some record ∧
      record.dealerSocket = port := by
  obtain rfl := Output.reg.inj (mem_getRegistration_sent hsent)
  cases hbefore : b.db.servicesDb rm.service with
  | none =>
      refine ⟨ServiceRecord.init rm.signature b.availableDealerPort b.db.nextDealerSktIndex,
        ?_, ?_⟩
      · rw [(registered_db_of_none hbefore).1]
        exact ServiceDatabase.insert_self b.db rm.service _
      · unfold ServiceDatabase.pushRegistration
        rw [hbefore]
        rfl
  | some before =>
      cases hregister : before.register with
      | none =>
          refine absurd ?_ hport
          unfold ServiceDatabase.pushRegistration
          rw [hbefore]
          dsimp only
          rw [hregister]
      | some after =>
          obtain ⟨hdb, -, hret⟩ := registered_db_of_accepted hbefore hregister
          refine ⟨after, ?_, hret.symm⟩
          rw [hdb]
          exact ServiceDatabase.insert_self ..

end ReliableService.Broker
