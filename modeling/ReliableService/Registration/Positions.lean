import ReliableService.Copies.Slots
import ReliableService.Registration.Tables

/-!
# Positions are for ever

A service gets its position in `available_services`, its socket, its deadline and its entry
of the poll set in one call of `get_registration`.  No other call touches any of them, and
`already_registered` keeps a service that loses copies and gets new ones from being added
again.  `Parallel` is what the tables say about each other in every reachable state, and
`Keeps` what a later state of the same run still has.
-/

namespace ReliableService.Broker

open ServiceRecord

variable {nmr : UInt8} {b b' b'' : Broker nmr} {service : ServiceType}
  {record : ServiceRecord nmr} {rm : RegistrationModule}

/-- `DEALER_POLL_INDEX` -/
def dealerPollIndex : ℕ := 3

/-- The tables of the broker are parallel. -/
structure Parallel (b : Broker nmr) : Prop where
  dealer_length : b.dealer.length = b.availableServices.length
  timeout_length : b.timeout.length = b.availableServices.length
  items_length : b.items.length = b.availableServices.length + dealerPollIndex
  nodup : b.availableServices.Nodup
  polls : ∀ (i : ℕ) port, b.dealer[i]? = some port →
    b.items[i + dealerPollIndex]? = some (.dealer port)
  bound : ∀ (i : ℕ) service, b.availableServices[i]? = some service →
    ∃ record, b.db.servicesDb service = some record ∧ b.dealer[i]? = some record.dealerSocket

/-- A service that is available keeps its position, its socket and its port. -/
def Keeps (b b' : Broker nmr) : Prop :=
  ∀ (i : ℕ) service, b.availableServices[i]? = some service →
    b'.availableServices[i]? = some service ∧ b'.dealer[i]? = b.dealer[i]? ∧
      ∀ record, b.db.servicesDb service = some record →
        ∃ record', b'.db.servicesDb service = some record' ∧
          record'.dealerSocket = record.dealerSocket

/-! ## The poll set -/

/-- The poll set is made up of the three fixed sockets and the dealers. -/
def Polls (b : Broker nmr) : Prop := b.items = [.router, .reg, .hc] ++ b.dealer.map .dealer

theorem Polls.handle (h : b.Polls) {connected : ClientId → Bool} {event : Event}
    (hb' : (b.handle connected event).result = .ok b') : b'.Polls := by
  rcases handle_cases hb' with ⟨rm, now, rfl⟩ | ⟨-, hwrites⟩
  · rw [handle_registration_ok hb']
    split
    · show b.items ++ [_] = _ ++ (b.dealer ++ [_]).map _
      rw [List.map_append, ← List.append_assoc, ← h]
      rfl
    · exact h
  · rw [hwrites]
    exact h

/-! ## The sockets -/

/-- Every dealer is bound on the port that was handed to the copies of its service. -/
def Bound (b : Broker nmr) : Prop :=
  ∀ (i : ℕ) service record, b.availableServices[i]? = some service →
    b.db.servicesDb service = some record → b.dealer[i]? = some record.dealerSocket

/-- The port of a service is fixed by its first registration. -/
theorem registered_dealerSocket (rm : RegistrationModule)
    (hbefore : b.db.servicesDb service = some record) :
    ∃ record', (b.registered rm).db.servicesDb service = some record' ∧
      record'.dealerSocket = record.dealerSocket := by
  by_cases hself : service = rm.service
  · subst hself
    cases hregister : record.register with
    | none =>
        rw [(registered_db_of_refused hbefore hregister).1]
        exact ⟨record, hbefore, rfl⟩
    | some after =>
        rw [(registered_db_of_accepted hbefore hregister).1]
        obtain ⟨-, rfl⟩ := register_eq_some.mp hregister
        exact ⟨_, ServiceDatabase.insert_self .., rfl⟩
  · rw [registered_servicesDb_ne hself]
    exact ⟨record, hbefore, rfl⟩

/-- The positions that were there keep their sockets. -/
theorem Bound.registered (h : b.Bound) (htabled : b.Tabled) {i : ℕ}
    (hi : b.availableServices[i]? = some service)
    (hservice : (b.registered rm).db.servicesDb service = some record) :
    b.dealer[i]? = some record.dealerSocket := by
  obtain ⟨before, hbefore⟩ := Option.ne_none_iff_exists'.mp
    (htabled.registered service (List.mem_of_getElem? hi))
  obtain ⟨record', hrecord', hsocket⟩ := registered_dealerSocket rm hbefore
  obtain rfl : record' = record := Option.some.inj (hrecord'.symm.trans hservice)
  rw [hsocket, h i service before hi hbefore]

/-- The new position holds the port that was handed to the copies. -/
theorem ret_of_completes (hcompletes : b.Completes rm)
    (hservice : (b.registered rm).db.servicesDb rm.service = some record) :
    (b.db.pushRegistration rm b.availableDealerPort).ret = record.dealerSocket := by
  cases hbefore : b.db.servicesDb rm.service with
  | none => exact absurd hcompletes (registered_db_of_none hbefore).2
  | some before =>
      cases hregister : before.register with
      | none => exact absurd hcompletes (registered_db_of_refused hbefore hregister).2
      | some after =>
          obtain ⟨hdb, -, hret⟩ := registered_db_of_accepted hbefore hregister
          rw [hdb, ServiceDatabase.insert_self, Option.some.injEq] at hservice
          rw [hret, hservice]

theorem Bound.registration (h : b.Bound) (htabled : b.Tabled) {now : Timespec}
    (hb' : (b.getRegistration rm now).result = .ok b') : b'.Bound := by
  intro i service record hi hservice
  rw [getRegistration_ok hb'] at hi hservice ⊢
  split at hi
  · rename_i hcompletes
    rw [if_pos hcompletes] at hservice ⊢
    change (b.availableServices ++ [rm.service])[i]? = some service at hi
    show (b.dealer ++ [_])[i]? = some record.dealerSocket
    change (b.registered rm).db.servicesDb service = some record at hservice
    by_cases hlt : i < b.availableServices.length
    · rw [List.getElem?_append_left hlt] at hi
      rw [List.getElem?_append_left (htabled.dealer_length.symm ▸ hlt)]
      exact h.registered htabled hi hservice
    · have hlast : i = b.availableServices.length ∧ service = rm.service := by
        rw [List.getElem?_append_right (not_lt.mp hlt)] at hi
        obtain ⟨hzero, hget⟩ := List.getElem?_eq_some_iff.mp hi
        rw [List.length_singleton] at hzero
        refine ⟨by omega, ?_⟩
        simpa using hget.symm
      obtain ⟨rfl, rfl⟩ := hlast
      rw [← htabled.dealer_length, List.getElem?_append_right le_rfl, Nat.sub_self,
        List.getElem?_cons_zero, ret_of_completes hcompletes hservice]
  · rename_i hcompletes
    rw [if_neg hcompletes] at hservice ⊢
    exact h.registered htabled hi hservice

theorem Bound.handle (h : b.Bound) (htabled : b.Tabled) {connected : ClientId → Bool}
    {event : Event} (hb' : (b.handle connected event).result = .ok b') : b'.Bound := by
  rcases handle_cases hb' with ⟨rm, now, rfl⟩ | ⟨hsame, -⟩
  · exact h.registration htabled hb'
  · intro i service record' hi hrecord'
    obtain ⟨record, hrecord, hsocket, -, -⟩ := hsame.record_eq service record' hrecord'
    rw [hsame.available_eq] at hi
    rw [hsame.dealer_eq, hsocket]
    exact h i service record hi hrecord

/-- A service keeps the port it has, whether it is available or not. -/
theorem dealerSocket_of_handle {connected : ClientId → Bool} {event : Event}
    (hb' : (b.handle connected event).result = .ok b')
    (hrecord : b.db.servicesDb service = some record) :
    ∃ record', b'.db.servicesDb service = some record' ∧
      record'.dealerSocket = record.dealerSocket := by
  rcases handle_cases hb' with ⟨rm, now, rfl⟩ | ⟨hsame, -⟩
  · rw [handle_registration_db hb']
    exact registered_dealerSocket rm hrecord
  · have hne : b'.db.servicesDb service ≠ none := by
      rw [ne_eq, hsame.none_iff service, hrecord]
      simp
    obtain ⟨record', hrecord'⟩ := Option.ne_none_iff_exists'.mp hne
    obtain ⟨before, hbefore, hsocket, -, -⟩ := hsame.record_eq service record' hrecord'
    obtain rfl : before = record := Option.some.inj (hbefore.symm.trans hrecord)
    exact ⟨record', hrecord', hsocket⟩

/-! ## Runs -/

theorem Keeps.refl (b : Broker nmr) : b.Keeps b :=
  fun _ _ hi => ⟨hi, rfl, fun record hrecord => ⟨record, hrecord, rfl⟩⟩

theorem Keeps.trans (h : b.Keeps b') (h' : b'.Keeps b'') : b.Keeps b'' := by
  intro i service hi
  obtain ⟨hi', hdealer, hrecords⟩ := h i service hi
  obtain ⟨hi'', hdealer', hrecords'⟩ := h' i service hi'
  refine ⟨hi'', hdealer'.trans hdealer, ?_⟩
  intro record hrecord
  obtain ⟨record', hrecord', hsocket⟩ := hrecords record hrecord
  obtain ⟨record'', hrecord'', hsocket'⟩ := hrecords' record' hrecord'
  exact ⟨record'', hrecord'', hsocket'.trans hsocket⟩

/-- **One call takes nothing away.** -/
theorem keeps_of_handle (htabled : b.Tabled) {connected : ClientId → Bool} {event : Event}
    (hb' : (b.handle connected event).result = .ok b') : b.Keeps b' := by
  intro i service hi
  have hlt : i < b.availableServices.length := (List.getElem?_eq_some_iff.mp hi).1
  have htables : b'.availableServices[i]? = some service ∧ b'.dealer[i]? = b.dealer[i]? := by
    rcases handle_cases hb' with ⟨rm, now, rfl⟩ | ⟨hsame, -⟩
    · rw [handle_registration_ok hb']
      split
      · refine ⟨(List.getElem?_append_left hlt).trans hi, ?_⟩
        exact List.getElem?_append_left (htabled.dealer_length.symm ▸ hlt)
      · exact ⟨hi, rfl⟩
    · exact ⟨by rw [hsame.available_eq, hi], by rw [hsame.dealer_eq]⟩
  exact ⟨htables.1, htables.2, fun record hrecord => dealerSocket_of_handle hb' hrecord⟩

theorem parallel_of_tabled (htabled : b.Tabled) (hpolls : b.Polls) (hbound : b.Bound) :
    b.Parallel where
  dealer_length := htabled.dealer_length
  timeout_length := htabled.timeout_length
  items_length := by
    rw [hpolls, List.length_append, List.length_map, htabled.dealer_length]
    exact Nat.add_comm ..
  nodup := htabled.nodup
  polls := by
    intro i port hport
    have hfixed : [PollItem.router, .reg, .hc].length ≤ i + dealerPollIndex := Nat.le_add_left ..
    rw [hpolls, List.getElem?_append_right hfixed]
    show (b.dealer.map PollItem.dealer)[i + 3 - 3]? = _
    rw [Nat.add_sub_cancel, List.getElem?_map, hport, Option.map_some]
  bound := by
    intro i service hi
    obtain ⟨record, hrecord⟩ := Option.ne_none_iff_exists'.mp
      (htabled.registered service (List.mem_of_getElem? hi))
    exact ⟨record, hrecord, hbound i service record hi hrecord⟩

/-- **The tables are parallel in every reachable state, and what a service once has it
keeps** however the run goes on. -/
theorem parallel_of_run {portRouter portReg : UInt16} {moments : List Moment}
    (hrun : ((init portRouter portReg : Broker nmr).run moments).result = .ok b) :
    b.Parallel ∧ ∀ more b', (b.run more).result = .ok b' → b.Keeps b' := by
  have hreached : b.Tabled ∧ b.Polls ∧ b.Bound :=
    Outcome.foldlM_invariant (P := fun b => b.Tabled ∧ b.Polls ∧ b.Bound)
      (fun _ _ _ _ hs ht => ⟨hs.1.handle ht, hs.2.1.handle ht, hs.2.2.handle hs.1 ht⟩)
      ⟨tabled_init portRouter portReg, rfl, fun _ _ _ hi => by simp [init] at hi⟩ hrun
  obtain ⟨htabled, hpolls, hbound⟩ := hreached
  refine ⟨parallel_of_tabled htabled hpolls hbound, ?_⟩
  intro more b' hmore
  have hlater : b'.Tabled ∧ b.Keeps b' :=
    Outcome.foldlM_invariant (P := fun t => t.Tabled ∧ b.Keeps t)
      (fun _ _ _ _ hs ht => ⟨hs.1.handle ht, hs.2.trans (keeps_of_handle hs.1 ht)⟩)
      ⟨htabled, Keeps.refl b⟩ hmore
  exact hlater.2

/-- A service loses its copies and gets a new one. -/
def regainedRun : List Moment :=
  [⟨everyone, .registration ⟨"pippo", 0⟩ ⟨0, 0⟩⟩, ⟨everyone, .registration ⟨"pippo", 0⟩ ⟨0, 0⟩⟩,
    ⟨everyone, .heartbeat 0 ⟨10, 0⟩ ⟨10, 0⟩⟩, ⟨everyone, .heartbeat 0 ⟨20, 0⟩ ⟨20, 0⟩⟩,
    ⟨everyone, .heartbeat 0 ⟨30, 0⟩ ⟨30, 0⟩⟩, ⟨everyone, .heartbeat 0 ⟨40, 0⟩ ⟨40, 0⟩⟩,
    ⟨everyone, .registration ⟨"pippo", 0⟩ ⟨0, 0⟩⟩, ⟨everyone, .registration ⟨"pippo", 0⟩ ⟨0, 0⟩⟩]

theorem parallel_of_run_regainedRun :
    ∃ b, ((init 5559 5555 : Broker 2).run regainedRun).result = .ok b ∧
      b.Parallel ∧ ∀ more b', (b.run more).result = .ok b' → b.Keeps b' := by
  have hrun : ((init 5559 5555 : Broker 2).run regainedRun).result.toOption.isSome := by
    decide +kernel
  obtain ⟨b, hb⟩ := Option.isSome_iff_exists.mp hrun
  exact ⟨b, Outcome.toOption_eq_some.mp hb, parallel_of_run (Outcome.toOption_eq_some.mp hb)⟩

end ReliableService.Broker
