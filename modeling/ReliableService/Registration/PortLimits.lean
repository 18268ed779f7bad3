import ReliableService.Registration.Answers

/-!
# How many services have a port

`available_dealer_port` starts at `DEALER_START_PORT` and goes up by one for each new service;
nothing looks at the value.  The two thousand and first service is handed the port of the
health checker, and the ports come round to `0`, which is `REG_FAIL`, and to the ones already
handed out.  Up to two thousand services everything holds (`neverClash_iff`).
-/

namespace ReliableService.Broker

open ServiceRecord

variable {nmr : UInt8} {b : Broker nmr} {history : List ServiceType} {service : ServiceType}
  {port : UInt16} {moments : List Moment}

/-- In this run of the broker a registration of the service was accepted and answered with the
port. -/
def Handed (nmr : UInt8) (moments : List Moment) (service : ServiceType) (port : UInt16) : Prop :=
  ∃ before connected rm now, ∃ b : Broker nmr,
    before ++ [⟨connected, .registration rm now⟩] <+: moments ∧
      ((init routerPortBroker regPortBroker).run before).result = .ok b ∧ rm.service = service ∧
      b.Accepts service ∧ .reg port ∈ (b.getRegistration rm now).sent

/-- Services do not share ports or socket numbers, and no port means something else. -/
structure NeverClash (b : Broker nmr) (moments : List Moment) : Prop where
  ports : ∀ service service' port, Handed nmr moments service port →
    Handed nmr moments service' port → service = service'
  not_regFail : ∀ service port, Handed nmr moments service port → port ≠ regFail
  not_reserved : ∀ service port, Handed nmr moments service port →
    port ∉ [routerPortBroker, regPortBroker, brokerPongPort]
  indices : ∀ service service' record record', b.db.servicesDb service = some record →
    b.db.servicesDb service' = some record' →
    record.dealerSktIndex = record'.dealerSktIndex → service = service'

/-- **The ports of a run** are those of the order of first registrations. -/
theorem handed_iff
    (hrun : ((init routerPortBroker regPortBroker : Broker nmr).run moments).result = .ok b) :
    Handed nmr moments service port ↔ service ∈ registrationHistory moments ∧
      port = dealerStartPort +
        UInt16.ofNat ((started (registrationHistory moments)).idxOf service) := by
  constructor
  · rintro ⟨before, connected, rm, now, t, hpre, ht, rfl, haccepts, hsent⟩
    obtain ⟨hmem, hplace⟩ := idxOf_started_of_isPrefix hpre
    have hport := Output.reg.inj (mem_getRegistration_sent hsent)
    rw [hport, hplace]
    exact ⟨hmem, ret_of_accepts (numbered_placed_run ht).1 haccepts⟩
  · rintro ⟨hmem, rfl⟩
    obtain ⟨before, connected, rm, now, t, hpre, ht, ⟨after, hok⟩, rfl, -, haccepts, hplace⟩ :=
      exists_first_reached hrun hmem
    refine ⟨before, connected, rm, now, t, hpre, ht, rfl, haccepts, ?_⟩
    rw [sent_of_getRegistration_ok hok, ret_of_accepts (numbered_placed_run ht).1 haccepts, hplace]
    exact List.mem_singleton_self _

/-- The number of services is the length of the order of first registrations. -/
theorem length_started_eq
    (hrun : ((init routerPortBroker regPortBroker : Broker nmr).run moments).result = .ok b) :
    (started (registrationHistory moments)).length =
      (registrationHistory moments).toFinset.card := by
  rw [← List.toFinset_card_of_nodup (numbered_placed_run hrun).1.nodup]
  congr 1
  ext service
  rw [List.mem_toFinset, List.mem_toFinset, mem_started]

/-- The two thousand and first service is handed the port of the health checker. -/
theorem not_neverClash_of_lt
    (hrun : ((init routerPortBroker regPortBroker : Broker nmr).run moments).result = .ok b)
    (hmany : 2000 < (registrationHistory moments).toFinset.card) : ¬ b.NeverClash moments := by
  intro hclash
  rw [← length_started_eq hrun] at hmany
  have hnodup := (numbered_placed_run hrun).1.nodup
  have hplace : (started (registrationHistory moments)).idxOf
      (started (registrationHistory moments))[2000] = 2000 := hnodup.idxOf_getElem 2000 hmany
  have hhanded : Handed nmr moments (started (registrationHistory moments))[2000]
      brokerPongPort := by
    rw [handed_iff hrun, hplace]
    exact ⟨mem_started.mp (List.getElem_mem hmany), by decide⟩
  exact hclash.not_reserved _ _ hhanded (by decide)

/-- **Dealer ports never clash**, with each other, with `REG_FAIL` or with the ports of the
broker, exactly if at most two thousand services register. -/
theorem neverClash_iff
    (hrun : ((init routerPortBroker regPortBroker : Broker nmr).run moments).result = .ok b) :
    b.NeverClash moments ↔ (registrationHistory moments).toFinset.card ≤ 2000 := by
  refine ⟨fun hclash => not_lt.mp fun hmany => not_neverClash_of_lt hrun hmany hclash, ?_⟩
  intro hfew
  rw [← length_started_eq hrun] at hfew
  obtain ⟨hnumbered, hplaced⟩ := numbered_placed_run hrun
  have hplace : ∀ service ∈ started (registrationHistory moments),
      (started (registrationHistory moments)).idxOf service < 2000 := fun service hmem =>
    (List.idxOf_lt_length_of_mem hmem).trans_le hfew
  have hport : ∀ service port, Handed nmr moments service port →
      service ∈ started (registrationHistory moments) ∧
        port.toNat = 6000 + (started (registrationHistory moments)).idxOf service := by
    intro service port hhanded
    obtain ⟨hmem, rfl⟩ := (handed_iff hrun).mp hhanded
    have hmem := mem_started.mpr hmem
    exact ⟨hmem, toNat_port ((hplace service hmem).trans (by decide))⟩
  constructor
  · intro service service' port hhanded hhanded'
    obtain ⟨hmem, hvalue⟩ := hport service port hhanded
    obtain ⟨-, hvalue'⟩ := hport service' port hhanded'
    exact (List.idxOf_inj hmem).mp (by omega)
  · rintro service _ hhanded rfl
    have hvalue := (hport service _ hhanded).2
    rw [regFail] at hvalue
    simp only [UInt16.reduceToNat] at hvalue
    omega
  · intro service port hhanded hreserved
    obtain ⟨hmem, hvalue⟩ := hport service port hhanded
    have hlt := hplace service hmem
    simp only [List.mem_cons, List.not_mem_nil, or_false, routerPortBroker, regPortBroker,
      brokerPongPort] at hreserved
    rcases hreserved with rfl | rfl | rfl <;>
      · simp only [UInt16.reduceToNat] at hvalue
        omega
  · intro service service' record record' hrecord hrecord' heq
    have hmem := hnumbered.mem_of_some hrecord
    have hlt := hplace service hmem
    have hlt' := hplace service' (hnumbered.mem_of_some hrecord')
    rw [hplaced.index service record hrecord, hplaced.index service' record' hrecord',
      ← UInt16.toNat_inj, UInt16.toNat_ofNat', UInt16.toNat_ofNat'] at heq
    exact (List.idxOf_inj hmem).mp (by omega)

theorem neverClash_iff_twoServices :
    ∃ b, ((init routerPortBroker regPortBroker : Broker 3).run
        (registering [0, 1])).result = .ok b ∧
      (b.NeverClash (registering [0, 1]) ↔
        (registrationHistory (registering [0, 1])).toFinset.card ≤ 2000) :=
  ⟨_, rfl, neverClash_iff rfl⟩

/-- Services with one registration each bind no socket, so the broker lives on. -/
theorem exists_run_registering {services : List ServiceType} (hnodup : services.Nodup) :
    ∃ b, ((init routerPortBroker regPortBroker : Broker nmr).run
      (registering services)).result = .ok b := by
  induction services using List.reverseRecOn with
  | nil => exact ⟨_, rfl⟩
  | append_singleton services service ih =>
      obtain ⟨hservices, -, hnew⟩ := List.nodup_append.mp hnodup
      obtain ⟨t, ht⟩ := ih hservices
      have hnone : t.db.servicesDb service = none := by
        rw [(numbered_placed_run ht).1.none_iff, mem_started, registrationHistory_registering,
          List.mem_reverse]
        exact fun hmem => hnew service hmem service (List.mem_singleton_self _) rfl
      have hcompletes : ¬ t.Completes ⟨"pippo", service⟩ := (registered_db_of_none hnone).2
      refine ⟨t.registered ⟨"pippo", service⟩, ?_⟩
      rw [registering, List.map_append, List.map_singleton]
      refine Outcome.foldlM_concat_ok.mpr ⟨t, ht, ?_⟩
      show (t.getRegistration _ _).result = _
      rw [getRegistration_of_not_completes hcompletes]

/-- **The port of the health checker** is handed to the two thousand and first service. -/
theorem health_checker_port_handed :
    ¬ ∀ (nmr : UInt8) (moments : List Moment) (b : Broker nmr),
      ((init routerPortBroker regPortBroker : Broker nmr).run moments).result = .ok b →
        b.NeverClash moments := by
  intro h
  have hnodup : ((List.range 2001).map UInt32.ofNat).Nodup := by
    refine List.nodup_range.map_on ?_
    intro i hi j hj heq
    have hi := List.mem_range.mp hi
    have hj := List.mem_range.mp hj
    rw [← UInt32.toNat_inj, UInt32.toNat_ofNat', UInt32.toNat_ofNat'] at heq
    omega
  obtain ⟨b, hb⟩ : ∃ b : Broker 3, _ := exists_run_registering hnodup
  refine not_neverClash_of_lt hb ?_ (h 3 _ b hb)
  rw [registrationHistory_registering, List.toFinset_reverse, List.toFinset_card_of_nodup hnodup,
    List.length_map, List.length_range]
  decide

end ReliableService.Broker
