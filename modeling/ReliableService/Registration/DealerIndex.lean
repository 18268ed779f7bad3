import ReliableService.Registration.Positions

/-!
# Two ways to find the socket of a service

`get_request` indexes `dealer` by `dealer_skt_index`, the number of services that had a
registration before this one had its first.  `ping_server` indexes it by the position of
the service in `available_services`, the number of services that were complete before this
one was.  The two agree while services complete in the order in which they started.

A sequence of registrations determines both orders: `started` and `completed`.  `Deployed`
is the invariant that reads the whole state of the broker off the sequence, and
`agrees_iff` compares the two orders.

Histories are written latest first.
-/

namespace ReliableService

open ServiceRecord

/-! ## The two orders -/

/-- The services in the order of their first registrations. -/
def started : List ServiceType → List ServiceType
  | [] => []
  | service :: earlier =>
      if service ∈ earlier then started earlier else started earlier ++ [service]

/-- The services in the order of their `nmr`-th registrations.  The first registration of a
service never completes it. -/
def completed (nmr : UInt8) : List ServiceType → List ServiceType
  | [] => []
  | service :: earlier =>
      if 1 ≤ earlier.count service ∧ earlier.count service + 1 = nmr.toNat then
        completed nmr earlier ++ [service]
      else completed nmr earlier

variable {nmr : UInt8} {history : List ServiceType} {service : ServiceType}

theorem mem_started : service ∈ started history ↔ service ∈ history := by
  induction history with
  | nil => simp [started]
  | cons first earlier ih =>
      rw [started]
      split
      · rename_i hmem
        rw [ih, List.mem_cons]
        refine ⟨Or.inr, fun h => h.elim (fun heq => heq ▸ hmem) id⟩
      · rw [List.mem_append, ih, List.mem_singleton, List.mem_cons, or_comm]

theorem count_of_mem_completed (h : service ∈ completed nmr history) :
    nmr.toNat ≤ history.count service := by
  induction history with
  | nil => simp [completed] at h
  | cons first earlier ih =>
      have hmono : earlier.count service ≤ (first :: earlier).count service :=
        (List.sublist_cons_self first earlier).count_le service
      rw [completed] at h
      split at h
      · rename_i hcount
        rcases List.mem_append.mp h with h | h
        · calc nmr.toNat ≤ earlier.count service := ih h
            _ ≤ (first :: earlier).count service := hmono
        · rw [List.mem_singleton.mp h, List.count_cons_self]
          omega
      · calc nmr.toNat ≤ earlier.count service := ih h
          _ ≤ (first :: earlier).count service := hmono

theorem idxOf_started_of_mem {first : ServiceType} (h : service ∈ history) :
    (started (first :: history)).idxOf service = (started history).idxOf service := by
  rw [started]
  split
  · rfl
  · rw [List.idxOf_append_of_mem (mem_started.mpr h)]

namespace Broker

variable {b b' : Broker nmr}

/-! ## What the broker holds after a deployment -/

/-- A sequence of registrations. -/
def deploy (b : Broker nmr) (rms : List (RegistrationModule × Timespec)) : Effect (Broker nmr) :=
  rms.foldlM (fun b rm => b.getRegistration rm.1 rm.2) b

/-- What a record says after a history of registrations. -/
structure Recorded (history : List ServiceType) (service : ServiceType)
    (record : ServiceRecord nmr) : Prop where
  index : record.dealerSktIndex = UInt16.ofNat ((started history).idxOf service)
  count : record.numCopiesRegistered.toNat = max 1 (min (history.count service) nmr.toNat)

/-- The broker after a history of registrations. -/
structure Deployed (b : Broker nmr) (history : List ServiceType) : Prop where
  next : b.db.nextDealerSktIndex = UInt16.ofNat (started history).length
  none_iff : ∀ service, b.db.servicesDb service = none ↔ service ∉ history
  recorded : ∀ service record, b.db.servicesDb service = some record →
    Recorded history service record
  available : b.availableServices = completed nmr history
  socket : ∀ (i : ℕ) service record, b.availableServices[i]? = some service →
    b.db.servicesDb service = some record → b.dealer[i]? = some record.dealerSocket
  tabled : b.Tabled

theorem deployed_init (portRouter portReg : UInt16) :
    (init portRouter portReg : Broker nmr).Deployed [] where
  next := rfl
  none_iff := by simp [init, ServiceDatabase.init]
  recorded := by simp [init, ServiceDatabase.init]
  available := rfl
  socket := by simp [init]
  tabled := tabled_init portRouter portReg

/-- A registration for another service leaves a record as it is described. -/
theorem Recorded.cons_of_ne {record : ServiceRecord nmr} (h : Recorded history service record)
    (hmem : service ∈ history) {first : ServiceType} (hne : service ≠ first) :
    Recorded (first :: history) service record where
  index := by rw [idxOf_started_of_mem hmem, h.index]
  count := by rw [List.count_cons_of_ne (Ne.symm hne), h.count]

/-! ### One registration -/

section Registration

variable {rm : RegistrationModule} {record record' : ServiceRecord nmr}

theorem Deployed.mem_of_some (h : b.Deployed history)
    (hrecord : b.db.servicesDb service = some record) : service ∈ history := by
  by_contra hnot
  rw [(h.none_iff service).mpr hnot] at hrecord
  cases hrecord

theorem started_cons_of_mem (h : service ∈ history) :
    started (service :: history) = started history := by
  rw [started, if_pos h]

theorem started_cons_of_notMem (h : service ∉ history) :
    started (service :: history) = started history ++ [service] := by
  rw [started, if_neg h]

/-- The first registration of a service makes its record. -/
theorem Deployed.recorded_init (h : b.Deployed history) (hnew : rm.service ∉ history) :
    Recorded (rm.service :: history) rm.service
      (ServiceRecord.init rm.signature b.availableDealerPort b.db.nextDealerSktIndex :
        ServiceRecord nmr) where
  index := by
    rw [started_cons_of_notMem hnew, List.idxOf_append_of_notMem (mt mem_started.mp hnew),
      List.idxOf_cons_self, Nat.add_zero]
    exact h.next
  count := by
    rw [List.count_cons_self, List.count_eq_zero_of_not_mem hnew]
    show 1 = _
    omega

/-- A refused registration finds the counter at `nmr`. -/
theorem Recorded.cons_of_refused (h : Recorded history service record) (hmem : service ∈ history)
    (hregister : record.register = none) : Recorded (service :: history) service record where
  index := by rw [started_cons_of_mem hmem, h.index]
  count := by
    have hcount := h.count
    have hfull := UInt8.le_iff_toNat_le.mp (register_eq_none.mp hregister)
    have hpos : 1 ≤ history.count service := List.count_pos_iff.mpr hmem
    rw [List.count_cons_self]
    omega

/-- An accepted one is counted. -/
theorem Recorded.cons_of_accepted (h : Recorded history service record) (hmem : service ∈ history)
    (hregister : record.register = some record') :
    Recorded (service :: history) service record' := by
  obtain ⟨hlt, rfl⟩ := register_eq_some.mp hregister
  have hcount := h.count
  have hlt' := UInt8.lt_iff_toNat_lt.mp hlt
  have hpos : 1 ≤ history.count service := List.count_pos_iff.mpr hmem
  refine ⟨by rw [started_cons_of_mem hmem, ← h.index], ?_⟩
  show (record.numCopiesRegistered + 1).toNat = _
  rw [toNat_succ_of_lt hlt, List.count_cons_self]
  omega

theorem Deployed.next_registered (h : b.Deployed history) (rm : RegistrationModule) :
    (b.registered rm).db.nextDealerSktIndex =
      UInt16.ofNat (started (rm.service :: history)).length := by
  cases hrecord : b.db.servicesDb rm.service with
  | none =>
      rw [(registered_db_of_none hrecord).1,
        started_cons_of_notMem ((h.none_iff rm.service).mp hrecord), List.length_append,
        List.length_singleton]
      show b.db.nextDealerSktIndex + 1 = _
      rw [h.next, UInt16.ofNat_add]
      rfl
  | some record =>
      rw [started_cons_of_mem (h.mem_of_some hrecord), ← h.next]
      cases hregister : record.register with
      | none => rw [(registered_db_of_refused hrecord hregister).1]
      | some record' =>
          rw [(registered_db_of_accepted hrecord hregister).1]
          rfl

theorem Deployed.none_iff_registered (h : b.Deployed history) (rm : RegistrationModule)
    (service : ServiceType) :
    (b.registered rm).db.servicesDb service = none ↔ service ∉ rm.service :: history := by
  by_cases hservice : service = rm.service
  · rw [hservice]
    exact iff_of_false (registered_servicesDb_self rm) (fun hnot => hnot List.mem_cons_self)
  · rw [registered_servicesDb_ne hservice, h.none_iff, List.mem_cons, not_or]
    exact ⟨fun hnot => ⟨hservice, hnot⟩, And.right⟩

theorem Deployed.recorded_registered (h : b.Deployed history)
    (hservice : (b.registered rm).db.servicesDb service = some record) :
    Recorded (rm.service :: history) service record := by
  by_cases hself : service = rm.service
  · subst hself
    cases hbefore : b.db.servicesDb rm.service with
    | none =>
        rw [(registered_db_of_none hbefore).1] at hservice
        have hinit := (ServiceDatabase.insert_self b.db rm.service _).symm.trans hservice
        rw [← Option.some.inj hinit]
        exact h.recorded_init ((h.none_iff rm.service).mp hbefore)
    | some before =>
        have hdescribed := h.recorded rm.service before hbefore
        have hmem := h.mem_of_some hbefore
        cases hregister : before.register with
        | none =>
            rw [(registered_db_of_refused hbefore hregister).1, hbefore,
              Option.some.injEq] at hservice
            exact hservice ▸ hdescribed.cons_of_refused hmem hregister
        | some after =>
            rw [(registered_db_of_accepted hbefore hregister).1, ServiceDatabase.insert_self,
              Option.some.injEq] at hservice
            exact hservice ▸ hdescribed.cons_of_accepted hmem hregister
  · rw [registered_servicesDb_ne hself] at hservice
    exact (h.recorded service record hservice).cons_of_ne (h.mem_of_some hservice) hself

/-- The `nmr`-th registration completes a service, unless it is the first. -/
theorem Deployed.completes_iff (h : b.Deployed history) (rm : RegistrationModule) :
    b.Completes rm ↔
      1 ≤ history.count rm.service ∧ history.count rm.service + 1 = nmr.toNat := by
  cases hrecord : b.db.servicesDb rm.service with
  | none =>
      have hnew := (h.none_iff rm.service).mp hrecord
      apply iff_of_false (registered_db_of_none hrecord).2
      intro hcount
      rw [List.count_eq_zero_of_not_mem hnew] at hcount
      omega
  | some record =>
      have hcount := (h.recorded rm.service record hrecord).count
      have hpos : 1 ≤ history.count rm.service := List.count_pos_iff.mpr (h.mem_of_some hrecord)
      cases hregister : record.register with
      | none =>
          have hfull := UInt8.le_iff_toNat_le.mp (register_eq_none.mp hregister)
          apply iff_of_false (registered_db_of_refused hrecord hregister).2
          intro hlast
          omega
      | some record' =>
          rw [(registered_db_of_accepted hrecord hregister).2.1]
          obtain ⟨hlt, rfl⟩ := register_eq_some.mp hregister
          have hlt' := UInt8.lt_iff_toNat_lt.mp hlt
          have hsucc := toNat_succ_of_lt hlt
          rw [← UInt8.toNat_inj]
          refine ⟨fun hready => ⟨hpos, by have := hready.1; dsimp only at this; omega⟩,
            fun hlast => ⟨by dsimp only; omega, fun hmem => ?_⟩⟩
          rw [h.available] at hmem
          have := count_of_mem_completed hmem
          omega

/-- **One registration.** -/
theorem Deployed.registration (h : b.Deployed history) {now : Timespec}
    (hb' : (b.getRegistration rm now).result = .ok b') :
    b'.Deployed (rm.service :: history) := by
  have htabled : b'.Tabled := by
    change (b.handle everyone (.registration rm now)).result = .ok b' at hb'
    exact h.tabled.handle hb'
  have hbound : b'.Bound := Bound.registration h.socket h.tabled hb'
  have heq := getRegistration_ok hb'
  by_cases hcompletes : b.Completes rm
  · rw [if_pos hcompletes] at heq
    subst heq
    refine ⟨h.next_registered rm, h.none_iff_registered rm, fun service record hservice =>
      h.recorded_registered hservice, ?_, hbound, htabled⟩
    rw [completed, if_pos ((h.completes_iff rm).mp hcompletes), ← h.available]
    rfl
  · rw [if_neg hcompletes] at heq
    subst heq
    refine ⟨h.next_registered rm, h.none_iff_registered rm, fun service record hservice =>
      h.recorded_registered hservice, ?_, hbound, htabled⟩
    rw [completed, if_neg (mt (h.completes_iff rm).mpr hcompletes)]
    exact h.available

end Registration

/-- **The state after any sequence of registrations** is read off the sequence. -/
theorem Deployed.deploy (h : b.Deployed history) {rms : List (RegistrationModule × Timespec)}
    (hrun : (b.deploy rms).result = .ok b') :
    b'.Deployed ((rms.map (·.1.service)).reverse ++ history) := by
  induction rms generalizing b history with
  | nil =>
      obtain rfl : b = b' := Except.ok.inj hrun
      exact h
  | cons rm rms ih =>
      obtain ⟨t, ht, hrun⟩ := Outcome.bind_result_ok.mp hrun
      have hlater := ih (h.registration ht) hrun
      rwa [List.map_cons, List.reverse_cons, List.append_assoc, List.singleton_append]

/-! ## Agreement -/

/-- The request path and the heartbeat path use the same socket, the one the copies of the
service are connected to. -/
structure Agrees (b : Broker nmr) : Prop where
  index : ∀ (i : ℕ) service, b.availableServices[i]? = some service →
    ∃ index, b.db.findRegistration service = some index ∧ index.toNat = i
  ping : ∀ (i : ℕ) service, b.availableServices[i]? = some service → (UInt8.ofNat i).toNat = i
  socket : ∀ (i : ℕ) service, b.availableServices[i]? = some service →
    ∃ record, b.db.servicesDb service = some record ∧ b.dealer[i]? = some record.dealerSocket
  forwarded : ∀ c request now later, request.service ∈ b.availableServices →
    ∃ record, b.db.servicesDb request.service = some record ∧
      (getRequest everyone b c request now later).sent =
        List.replicate record.numCopiesReliable.toNat
          (.dealer record.dealerSktIndex.toNat c (forward record request)) ∧
      b.dealer[record.dealerSktIndex.toNat]? = some record.dealerSocket

/-- Services complete in the order in which they started, and no more than a `uint8_t`
can tell apart. -/
def InOrder (nmr : UInt8) (history : List ServiceType) : Prop :=
  ∀ (i : ℕ) service, (completed nmr history)[i]? = some service →
    (started history).idxOf service % UInt16.size = i ∧ i < UInt8.size

/-- Registrations of these services. -/
def registrationsOf (services : List ServiceType) : List (RegistrationModule × Timespec) :=
  services.map fun service => (⟨"pippo", service⟩, ⟨0, 0⟩)

end Broker

end ReliableService
