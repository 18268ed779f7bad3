import ReliableService.Copies.Slots
import ReliableService.Registration.Tables

/-!
# How many copies stand behind an available service

`registration_module` does not say which copy registers, so `num_copies_registered` counts
messages.  Until the service is available nothing lowers the counter, so the message that
makes it available is exactly the `nmr`-th one (`Counted`), and all of them were accepted.
Hence the service has its `nmr` copies if and only if no copy is behind two of these
messages (`full_redundancy_iff`); a copy that its health checker restarts during the
deployment is.

The ghost in this module is the server identifier of the copy that sends a registration.
-/

namespace ReliableService.Broker

open ServiceRecord

variable {nmr : UInt8} {b b' : Broker nmr} {service : ServiceType}

/-- A call of a handler and, if it is a registration, the identifier of its sender. -/
abbrev Identified := Moment × UInt8

/-- The moment is a registration for this service. -/
def Registers (service : ServiceType) (moment : Moment) : Prop :=
  match moment.event with
  | .registration rm _ => rm.service = service
  | _ => False

instance (service : ServiceType) : ∀ moment, Decidable (Registers service moment)
  | ⟨_, .registration rm _⟩ => inferInstanceAs (Decidable (rm.service = service))
  | ⟨_, .request _ _ _ _⟩ => .isFalse id
  | ⟨_, .response _ _ _⟩ => .isFalse id
  | ⟨_, .heartbeat _ _ _⟩ => .isFalse id
  | ⟨_, .sweep _⟩ => .isFalse id

/-- Who has sent registrations for a service. -/
def registrants (service : ServiceType) (moments : List Identified) : List UInt8 :=
  (moments.filter fun m => Registers service m.1).map Prod.snd

/-- `push_registration` takes a copy in: the service is new, or has room. -/
def Accepts (b : Broker nmr) (service : ServiceType) : Prop :=
  match b.db.servicesDb service with
  | none => True
  | some record => record.numCopiesRegistered < nmr

instance Accepts.decidable (b : Broker nmr) (service : ServiceType) :
    Decidable (b.Accepts service) :=
  match h : b.db.servicesDb service with
  | none => .isTrue (by simp [Accepts, h])
  | some record => decidable_of_iff (record.numCopiesRegistered < nmr) (by simp [Accepts, h])

/-- Whose registrations for a service were accepted. -/
def acceptedCopies (service : ServiceType) (b : Broker nmr) : List Identified → List UInt8
  | [] => []
  | m :: moments =>
      (if Registers service m.1 ∧ b.Accepts service then [m.2] else []) ++
        match (b.handle m.1.connected m.1.event).result with
        | .ok b' => acceptedCopies service b' moments
        | .error _ => []

/-! ## Counting messages -/

/-- What the counter of a service says before it is available, after `n` registrations. -/
def Counted (b : Broker nmr) (service : ServiceType) (n : ℕ) : Prop :=
  service ∉ b.availableServices →
    match b.db.servicesDb service with
    | none => n = 0
    | some record => record.numCopiesRegistered.toNat = n ∧ 1 ≤ n ∧ n < nmr.toNat ∨
        record.numCopiesRegistered = 1 ∧ nmr.toNat ≤ 1

theorem counted_init (portRouter portReg : UInt16) (service : ServiceType) :
    (init portRouter portReg : Broker nmr).Counted service 0 :=
  fun _ => rfl

/-- A registration for another service, or no registration, leaves the count alone. -/
theorem Counted.of_other {n : ℕ} (h : b.Counted service n) {moment : Moment}
    (hother : ¬ Registers service moment)
    (hb' : (b.handle moment.connected moment.event).result = .ok b') : b'.Counted service n := by
  obtain ⟨connected, event⟩ := moment
  rcases handle_cases hb' with ⟨rm, now, rfl⟩ | ⟨hsame, -⟩
  · have hne : service ≠ rm.service := fun heq => hother heq.symm
    have havailable : service ∈ b.availableServices → service ∈ b'.availableServices := by
      rw [handle_registration_ok hb']
      split
      · exact List.mem_append_left _
      · exact id
    intro hnot
    rw [handle_registration_db hb', registered_servicesDb_ne hne]
    exact h (mt havailable hnot)
  · intro hnot
    rw [hsame.available_eq] at hnot
    have hcount := h hnot
    cases hrecord : b'.db.servicesDb service with
    | none =>
        rw [(hsame.none_iff service).mp hrecord] at hcount
        exact hcount
    | some record' =>
        obtain ⟨record, hrecord', -, -, heq⟩ := hsame.record_eq service record' hrecord
        rw [hrecord'] at hcount
        dsimp only at hcount ⊢
        rw [heq hnot]
        exact hcount

/-- The first registration of a service counts one, whatever `nmr` is. -/
theorem Counted.first {n : ℕ} (h : b.Counted service n) {rm : RegistrationModule}
    (hself : rm.service = service) (hnot : service ∉ b.availableServices)
    (hrecord : b.db.servicesDb rm.service = none) :
    (b.registered rm).Counted service (n + 1) := by
  subst hself
  have hzero := h hnot
  rw [hrecord] at hzero
  have hzero : n = 0 := hzero
  intro _
  have hinit := ServiceDatabase.insert_self b.db rm.service
    (ServiceRecord.init rm.signature b.availableDealerPort b.db.nextDealerSktIndex)
  rw [(registered_db_of_none hrecord).1]
  show match (b.db.insert rm.service _).servicesDb rm.service with | none => _ | some r => _
  rw [hinit, hzero]
  by_cases hnmr : 1 < nmr.toNat
  · exact Or.inl ⟨rfl, le_rfl, hnmr⟩
  · exact Or.inr ⟨rfl, not_lt.mp hnmr⟩

/-- A service that is not available refuses a registration only if it has a single copy. -/
theorem Counted.refused {n : ℕ} (h : b.Counted service n) {rm : RegistrationModule}
    (hself : rm.service = service) {record : ServiceRecord nmr}
    (hrecord : b.db.servicesDb rm.service = some record) (hregister : record.register = none) :
    (b.registered rm).Counted service (n + 1) := by
  subst hself
  intro hnot
  have hcount := h hnot
  rw [hrecord] at hcount
  rw [(registered_db_of_refused hrecord hregister).1, hrecord]
  have hfull := UInt8.le_iff_toNat_le.mp (register_eq_none.mp hregister)
  rcases hcount with ⟨hn, -, hlt⟩ | hone
  · omega
  · exact Or.inr hone

/-- An accepted registration is counted, and it is not the first. -/
theorem Counted.accepted {n : ℕ} (h : b.Counted service n)
    (hnot : service ∉ b.availableServices) {record record' : ServiceRecord nmr}
    (hrecord : b.db.servicesDb service = some record)
    (hregister : record.register = some record') :
    record'.numCopiesRegistered.toNat = n + 1 ∧ n + 1 ≤ nmr.toNat ∧ 1 ≤ n ∧
      b.Accepts service := by
  have hcount := h hnot
  rw [hrecord] at hcount
  obtain ⟨hlt, rfl⟩ := register_eq_some.mp hregister
  have hlt' := UInt8.lt_iff_toNat_lt.mp hlt
  have hn : record.numCopiesRegistered.toNat = n ∧ 1 ≤ n := by
    rcases hcount with ⟨hn, hpos, -⟩ | ⟨hone, hnmr⟩
    · exact ⟨hn, hpos⟩
    · rw [hone] at hlt'
      have : (1 : UInt8).toNat = 1 := rfl
      omega
  refine ⟨?_, by omega, hn.2, ?_⟩
  · rw [← hn.1]
    exact toNat_succ_of_lt hlt
  · rw [Accepts, hrecord]
    exact hlt

/-- **One registration.**  Unless it makes the service available, the count goes up by one;
if it does, it is the `nmr`-th. -/
theorem Counted.registration {n : ℕ} (h : b.Counted service n)
    (hnot : service ∉ b.availableServices) {rm : RegistrationModule} (hself : rm.service = service)
    {connected : ClientId → Bool} {now : Timespec}
    (hb' : (b.handle connected (.registration rm now)).result = .ok b') :
    b'.Counted service (n + 1) ∧
      (service ∈ b'.availableServices → n + 1 = nmr.toNat ∧ 1 ≤ n ∧ b.Accepts service) := by
  rw [handle_registration_ok hb']
  cases hrecord : b.db.servicesDb rm.service with
  | none =>
      rw [if_neg (registered_db_of_none hrecord).2]
      exact ⟨h.first hself hnot hrecord, fun hmem => absurd hmem hnot⟩
  | some record =>
      cases hregister : record.register with
      | none =>
          rw [if_neg (registered_db_of_refused hrecord hregister).2]
          exact ⟨h.refused hself hrecord hregister, fun hmem => absurd hmem hnot⟩
      | some record' =>
          subst hself
          obtain ⟨hnext, hle, hpos, haccepts⟩ := h.accepted hnot hrecord hregister
          obtain ⟨hdb, hcompletes, -⟩ := registered_db_of_accepted hrecord hregister
          by_cases hready : record'.numCopiesRegistered = nmr
          · rw [if_pos (hcompletes.mpr ⟨hready, hnot⟩)]
            refine ⟨?_, fun _ => ⟨by rw [← hnext, hready], hpos, haccepts⟩⟩
            intro hnot'
            exact absurd (List.mem_append_right _ (List.mem_singleton_self _)) hnot'
          · rw [if_neg fun hc => hready (hcompletes.mp hc).1]
            refine ⟨?_, fun hmem => absurd hmem hnot⟩
            intro _
            rw [hdb, ServiceDatabase.insert_self]
            have hne : record'.numCopiesRegistered.toNat ≠ nmr.toNat :=
              fun heq => hready (UInt8.toNat_inj.mp heq)
            exact Or.inl ⟨hnext, Nat.le_add_left 1 n, by omega⟩

/-- While more registrations are needed, the next one is accepted. -/
theorem Counted.accepts {n : ℕ} (h : b.Counted service n) (hnot : service ∉ b.availableServices)
    (hlt : n < nmr.toNat) (hnmr : 2 ≤ nmr.toNat) : b.Accepts service := by
  have hcount := h hnot
  unfold Accepts
  cases hrecord : b.db.servicesDb service with
  | none => trivial
  | some record =>
      rw [hrecord] at hcount
      dsimp only at hcount ⊢
      rw [UInt8.lt_iff_toNat_lt]
      omega

theorem exists_of_registers {moment : Moment} (h : Registers service moment) :
    ∃ connected rm now, moment = ⟨connected, .registration rm now⟩ ∧ rm.service = service := by
  obtain ⟨connected, event⟩ := moment
  cases event with
  | registration rm now => exact ⟨connected, rm, now, rfl, h⟩
  | request c request now later => exact h.elim
  | response index reply c => exact h.elim
  | heartbeat i now later => exact h.elim
  | sweep now => exact h.elim

/-! ## Runs -/

theorem registrants_cons (m : Identified) (moments : List Identified) :
    registrants service (m :: moments) =
      if Registers service m.1 then m.2 :: registrants service moments
      else registrants service moments := by
  unfold registrants
  rw [List.filter_cons]
  by_cases h : Registers service m.1
  · rw [if_pos h, if_pos (by simpa using h)]
    rfl
  · rw [if_neg h, if_neg (by simpa using h)]

/-- Availability is never withdrawn. -/
theorem mem_available_mono {moment : Moment} (hmem : service ∈ b.availableServices)
    (hb' : (b.handle moment.connected moment.event).result = .ok b') :
    service ∈ b'.availableServices := by
  obtain ⟨connected, event⟩ := moment
  rcases handle_cases hb' with ⟨rm, now, rfl⟩ | ⟨hsame, -⟩
  · rw [handle_registration_ok hb']
    split
    · exact List.mem_append_left _ hmem
    · exact hmem
  · rw [hsame.available_eq]
    exact hmem

theorem mem_available_run {moments : List Moment} (hmem : service ∈ b.availableServices)
    (hrun : (b.run moments).result = .ok b') : service ∈ b'.availableServices :=
  Outcome.foldlM_invariant (P := fun t => service ∈ t.availableServices)
    (fun _ _ _ _ hs ht => mem_available_mono hs ht) hmem hrun

/-- Every state has some count. -/
theorem counted_run {moments : List Moment} {n : ℕ} (hcount : b.Counted service n)
    (hrun : (b.run moments).result = .ok b') : ∃ n, b'.Counted service n := by
  refine Outcome.foldlM_invariant (P := fun t => ∃ n, t.Counted service n) ?_ ⟨n, hcount⟩ hrun
  rintro s t moment - ⟨n, hcount⟩ ht
  by_cases hmem : service ∈ s.availableServices
  · exact ⟨0, fun hnot => absurd (mem_available_mono hmem ht) hnot⟩
  by_cases hregisters : Registers service moment
  · obtain ⟨connected, rm, now, rfl, hself⟩ := exists_of_registers hregisters
    exact ⟨n + 1, (hcount.registration hmem hself ht).1⟩
  · exact ⟨n, hcount.of_other hregisters ht⟩

/-- A call that makes a service available is a registration for it. -/
theorem registers_of_available {moment : Moment} (hnot : service ∉ b.availableServices)
    (hb' : (b.handle moment.connected moment.event).result = .ok b')
    (havailable : service ∈ b'.availableServices) :
    ∃ connected rm now, moment = ⟨connected, .registration rm now⟩ ∧ rm.service = service := by
  obtain ⟨connected, event⟩ := moment
  rcases handle_cases hb' with ⟨rm, now, rfl⟩ | ⟨hsame, -⟩
  · refine ⟨connected, rm, now, rfl, ?_⟩
    rw [handle_registration_ok hb'] at havailable
    split at havailable
    · rcases List.mem_append.mp havailable with hmem | hmem
      · exact absurd hmem hnot
      · exact (List.mem_singleton.mp hmem).symm
    · exact absurd havailable hnot
  · rw [hsame.available_eq] at havailable
    exact absurd havailable hnot

/-- Up to the registration that makes the service available, everybody who registers is
accepted, and that registration is the `nmr`-th. -/
theorem acceptedCopies_eq {n : ℕ} {before : List Identified} {last : Identified}
    {completed : Broker nmr} (hcount : b.Counted service n)
    (hrun : (b.run (before.map Prod.fst)).result = .ok b')
    (hnot : service ∉ b'.availableServices)
    (hlast : (b'.handle last.1.connected last.1.event).result = .ok completed)
    (havailable : service ∈ completed.availableServices) :
    acceptedCopies service b (before ++ [last]) = registrants service (before ++ [last]) ∧
      n + (registrants service (before ++ [last])).length = nmr.toNat := by
  obtain ⟨⟨connected, event⟩, id⟩ := last
  obtain ⟨_, rm, now, heq, hself⟩ := registers_of_available hnot hlast havailable
  obtain ⟨rfl, rfl⟩ := Moment.mk.inj heq
  -- a single copy never makes its service available
  have hnmr : 2 ≤ nmr.toNat := by
    obtain ⟨n', hcount'⟩ := counted_run hcount hrun
    have := (hcount'.registration hnot hself hlast).2 havailable
    omega
  induction before generalizing b n with
  | nil =>
      obtain rfl : b = b' := Except.ok.inj hrun
      have hregisters : Registers service ⟨connected, .registration rm now⟩ := hself
      obtain ⟨hn, -, haccepts⟩ := (hcount.registration hnot hself hlast).2 havailable
      rw [List.nil_append, registrants_cons, if_pos hregisters, acceptedCopies,
        if_pos ⟨hregisters, haccepts⟩, hlast]
      exact ⟨rfl, hn⟩
  | cons m before ih =>
      obtain ⟨t, ht, hrest⟩ := Outcome.bind_result_ok.mp hrun
      have hrest : (t.run (before.map Prod.fst)).result = .ok b' := hrest
      have hnotNext : service ∉ t.availableServices := fun hmem =>
        hnot (mem_available_run hmem hrest)
      have hnotNow : service ∉ b.availableServices := fun hmem =>
        hnotNext (mem_available_mono hmem ht)
      rw [List.cons_append, registrants_cons, acceptedCopies, ht]
      by_cases hregisters : Registers service m.1
      · obtain ⟨moment, id'⟩ := m
        obtain ⟨connected', rm', now', rfl, hself'⟩ := exists_of_registers hregisters
        obtain ⟨hcount', -⟩ := hcount.registration hnotNow hself' ht
        obtain ⟨heq, hlength⟩ := ih hcount' hrest
        rw [if_pos hregisters, if_pos ⟨hregisters, hcount.accepts hnotNow (by omega) hnmr⟩]
        refine ⟨congrArg (id' :: ·) heq, ?_⟩
        rw [List.length_cons]
        omega
      · rw [if_neg hregisters, if_neg fun h => hregisters h.1, List.nil_append]
        exact ih (hcount.of_other hregisters ht) hrest

/-- **A service becomes available with full redundancy** exactly if the registrations that
made it available come from copies that are pairwise different. -/
theorem full_redundancy_iff {portRouter portReg : UInt16} {before : List Identified}
    {last : Identified} {b completed : Broker nmr}
    (hrun : ((init portRouter portReg).run (before.map Prod.fst)).result = .ok b)
    (hlast : (b.handle last.1.connected last.1.event).result = .ok completed)
    (hnot : service ∉ b.availableServices) (havailable : service ∈ completed.availableServices) :
    nmr.toNat ≤ (acceptedCopies service (init portRouter portReg : Broker nmr)
        (before ++ [last])).toFinset.card ↔
      (registrants service (before ++ [last])).Nodup := by
  obtain ⟨heq, hlength⟩ :=
    acceptedCopies_eq (counted_init portRouter portReg service) hrun hnot hlast havailable
  rw [heq, ← hlength, Nat.zero_add, List.card_toFinset]
  refine ⟨?_, ?_⟩
  · intro hle
    have hdedup : (registrants service (before ++ [last])).dedup =
        registrants service (before ++ [last]) :=
      (List.dedup_sublist _).eq_of_length_le hle
    exact List.dedup_eq_self.mp hdedup
  · intro hnodup
    rw [List.dedup_eq_self.mpr hnodup]

/-- The registrations of service `0` by these copies. -/
def registeredBy (ids : List UInt8) : List Identified :=
  ids.map fun id => (⟨everyone, .registration ⟨"pippo", 0⟩ ⟨0, 0⟩⟩, id)

theorem full_redundancy_iff_twoCopies :
    ∃ b completed : Broker 2,
      ((init 5559 5555).run ((registeredBy [0]).map Prod.fst)).result = .ok b ∧
        (b.handle everyone (.registration ⟨"pippo", 0⟩ ⟨0, 0⟩)).result = .ok completed ∧
        ((2 : UInt8).toNat ≤ (acceptedCopies 0 (init 5559 5555 : Broker 2)
            (registeredBy [0] ++
              [(⟨everyone, .registration ⟨"pippo", 0⟩ ⟨0, 0⟩⟩, 1)])).toFinset.card ↔
          (registrants 0 (registeredBy [0] ++
            [(⟨everyone, .registration ⟨"pippo", 0⟩ ⟨0, 0⟩⟩, 1)])).Nodup) := by
  refine ⟨_, _, rfl, rfl, full_redundancy_iff rfl rfl ?_ ?_⟩ <;> decide +kernel

/-- **A copy that is restarted during the deployment counts twice.** -/
theorem restarted_copy_counts_twice :
    ¬ ∀ (nmr : UInt8) (service : ServiceType) (portRouter portReg : UInt16)
      (before : List Identified) (last : Identified) (b completed : Broker nmr),
      ((init portRouter portReg).run (before.map Prod.fst)).result = .ok b →
      (b.handle last.1.connected last.1.event).result = .ok completed →
      service ∉ b.availableServices → service ∈ completed.availableServices →
      nmr.toNat ≤ (acceptedCopies service (init portRouter portReg : Broker nmr)
        (before ++ [last])).toFinset.card := by
  intro h
  have hle := h 2 0 5559 5555 (registeredBy [0])
    (⟨everyone, .registration ⟨"pippo", 0⟩ ⟨0, 0⟩⟩, 0) _ _ rfl rfl
    (by decide +kernel) (by decide +kernel)
  exact absurd hle (by decide +kernel)

end ReliableService.Broker
