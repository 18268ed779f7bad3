import ReliableService.Registration.Availability
import ReliableService.Requests.Decisions
import ReliableService.Step.Schedules

/-!
# How the loop ends

`step` is an endless loop, so that every way it ends is a fault.  `Stumbles` lists them: for each
the call that meets it, the state it meets it in, and what becomes of the process.  Nothing else
ends it (`loop_stumbles`): not a deadline, not a heartbeat, not the loop's own indexing, no
registration that is refused, and no reply that comes too late.
-/

namespace ReliableService.Broker

open ServiceRecord

variable {nmr : UInt8} {b b' : Broker nmr} {c : ClientId} {fault : Fault}

/-- What can go wrong in a call, and how the process ends. -/
inductive Stumbles (b : Broker nmr) : Moment → Fault → Prop
  /-- The last copy of a service registers, and the port of its socket is taken. -/
  | portTaken {connected : ClientId → Bool} (rm : RegistrationModule) (now : Timespec)
      (hcompletes : b.Completes rm)
      (hport : (b.db.pushRegistration rm b.availableDealerPort).ret ≠ 0)
      (htaken : (b.db.pushRegistration rm b.availableDealerPort).ret ∈
        b.portRouter :: b.portReg :: brokerPongPort :: b.dealer) :
      Stumbles b ⟨connected, .registration rm now⟩ .addressInUse
  /-- A service is asked for that has some of its copies. -/
  | halfRegistered {connected : ClientId → Bool} (c : ClientId) (request : RequestModule)
      (now later : Timespec) (hregistered : b.db.servicesDb request.service ≠ none)
      (hmissing : request.service ∉ b.availableServices) :
      Stumbles b ⟨connected, .request c request now later⟩ .outOfRange
  /-- A service is asked for whose index leaves the sockets, because an earlier one has no socket
  yet. -/
  | noSocket {connected : ClientId → Bool} (c : ClientId) (request : RequestModule)
      (now later : Timespec) (record : ServiceRecord nmr)
      (hrecord : b.db.servicesDb request.service = some record)
      (hcopies : 0 < record.numCopiesReliable.toNat)
      (hindex : b.dealer.length ≤ record.dealerSktIndex.toNat) :
      Stumbles b ⟨connected, .request c request now later⟩ .outOfRange
  /-- A pong or a result of a service that nobody has registered. -/
  | unknownService {connected : ClientId → Bool} (index : ℕ) (reply : ServerReply) (c : ClientId)
      (hread : reply.heartbeat = true ∨ reply.duplicated = false)
      (hnone : b.db.servicesDb reply.service = none) :
      Stumbles b ⟨connected, .response index reply c⟩ .exitFailure
  /-- A pong of a copy whose identifier is not below the redundancy. -/
  | noSlot {connected : ClientId → Bool} (index : ℕ) (reply : ServerReply) (c : ClientId)
      (hpong : reply.heartbeat = true) (hregistered : b.db.servicesDb reply.service ≠ none)
      (hid : nmr.toNat ≤ reply.id.toNat) :
      Stumbles b ⟨connected, .response index reply c⟩ .outOfRange
  /-- A sweep meets an expired record at a position whose number is no service. -/
  | noService {connected : ClientId → Bool} (now : Timespec) (entry : ServiceType × ℕ)
      (hentry : entry ∈ b.availableServices.zipIdx) (record : RequestRecord)
      (hrecord : record ∈ b.db.pending entry.1) (hexpired : timeCmp now record.timeout = 1)
      (hnone : b.db.servicesDb (UInt32.ofNat entry.2) = none) :
      Stumbles b ⟨connected, .sweep now⟩ .exitFailure
  /-- Somebody is answered who has gone. -/
  | clientGone (moment : Moment) (hgone : ¬ b.Attended moment) : Stumbles b moment .hostUnreachable
  /-- A vote on 256 results or more. -/
  | tooManyResults {connected : ClientId → Bool} (event : Event) (values : List Int32)
      (hvotes : b.VotesOn values event) (hmany : 256 ≤ values.length) :
      Stumbles b ⟨connected, event⟩ .endless

/-! ## The calls -/

variable {connected : ClientId → Bool}

theorem error_of_vote {values : List Int32} {before : Option Int32}
    (h : (vote nmr values before).result = .error fault) : fault = .endless := by
  unfold vote at h
  split at h
  · exact (Except.error.inj h).symm
  · dsimp only at h
    repeat' split at h
    all_goals cases h

theorem stumbles_of_getRegistration {rm : RegistrationModule} {now : Timespec}
    (h : (b.getRegistration rm now).result = .error fault) :
    b.Stumbles ⟨connected, .registration rm now⟩ fault := by
  rw [getRegistration_eq, Outcome.bind_result_error] at h
  rcases h with h | ⟨made, -, h⟩
  · split at h
    · rename_i hcompletes
      rcases Outcome.bind_result_error.mp h with h | ⟨_, -, h⟩
      · unfold addDealer at h
        split at h
        · rename_i htaken
          obtain rfl := Except.error.inj h
          exact .portTaken rm now hcompletes htaken.1 htaken.2
        · cases h
      · cases h
    · cases h
  · cases h

theorem updateTimeout_error {service : ServiceType} {now : Timespec}
    (h : (b.updateTimeout service now).result = .error fault) :
    fault = .outOfRange ∧ b.timeout.length ≤ b.availableServices.idxOf service := by
  unfold updateTimeout at h
  dsimp only at h
  split at h
  · cases h
  · rename_i hlt
    exact ⟨(Except.error.inj h).symm, not_lt.mp hlt⟩

theorem sendCopies_error {index : ℕ} {envelope : ClientId} {sm : ServiceModule} {n : ℕ}
    (h : (b.sendCopies index envelope sm n).result = .error fault) :
    fault = .outOfRange ∧ 0 < n ∧ b.dealer.length ≤ index := by
  by_cases hlt : index < b.dealer.length
  · rw [sendCopies_of_lt hlt] at h
    cases h
  · rcases Nat.eq_zero_or_pos n with rfl | hn
    · cases h
    · rw [sendCopies_of_not_lt hlt envelope sm hn] at h
      exact ⟨(Except.error.inj h).symm, hn, not_lt.mp hlt⟩

theorem stumbles_of_getRequest (htabled : b.Tabled) {request : RequestModule}
    {now later : Timespec}
    (h : (getRequest everyone b c request now later).result = .error fault) :
    b.Stumbles ⟨connected, .request c request now later⟩ fault := by
  cases hrecord : b.db.servicesDb request.service with
  | none =>
      rw [getRequest_of_none hrecord] at h
      cases h
  | some record =>
      rw [getRequest_of_some hrecord, Outcome.bind_result_error] at h
      rcases h with h | ⟨_, -, h⟩
      · obtain ⟨rfl, hcopies, hindex⟩ := sendCopies_error h
        exact .noSocket c request now later record hrecord hcopies hindex
      · obtain ⟨rfl, hindex⟩ := updateTimeout_error h
        refine .halfRegistered c request now later (by rw [hrecord]; simp) fun hmem => ?_
        -- an available service has its deadline
        have hlt : b.availableServices.idxOf request.service < b.timeout.length := by
          rw [htabled.timeout_length]
          exact List.idxOf_lt_length_iff.mpr hmem
        exact absurd hindex (not_le.mpr hlt)

theorem stumbles_of_getResponse {index : ℕ} {reply : ServerReply}
    (h : (getResponse everyone b index reply c).result = .error fault) :
    b.Stumbles ⟨connected, .response index reply c⟩ fault := by
  by_cases hpong : reply.heartbeat = true
  · rw [getResponse_pong hpong, Outcome.bind_result_error] at h
    rcases h with h | ⟨db, -, h⟩
    · unfold ServiceDatabase.registerPong at h
      cases hrecord : b.db.servicesDb reply.service with
      | none =>
          rw [ServiceDatabase.lookup_of_none hrecord] at h
          obtain rfl := Except.error.inj h
          exact .unknownService index reply c (.inl hpong) hrecord
      | some record =>
          rw [ServiceDatabase.lookup_of_some hrecord, Outcome.pure_bind'] at h
          split at h
          · cases h
          · rename_i hid
            obtain rfl := Except.error.inj h
            exact .noSlot index reply c hpong (by rw [hrecord]; simp) (not_lt.mp hid)
    · cases h
  rw [Bool.not_eq_true] at hpong
  by_cases hdup : reply.duplicated = true
  · rw [getResponse_duplicated hpong hdup] at h
    cases h
  rw [Bool.not_eq_true] at hdup
  cases hrecord : b.db.servicesDb reply.service with
  | none =>
      rw [getResponse, if_neg (by simp [hpong]), if_neg (by simp [hdup]),
        ServiceDatabase.pushResult, ServiceDatabase.lookup_of_none hrecord] at h
      obtain rfl := Except.error.inj h
      exact .unknownService index reply c (.inr hdup) hrecord
  | some record =>
      cases hlast : (ofClient c record.requestRecords).getLast? with
      | none =>
          rw [getResponse_unclaimed hpong hdup hrecord (List.getLast?_eq_none_iff.mp hlast)] at h
          cases h
      | some last =>
          have hcounted := h
          rw [getResponse_counted hpong hdup hrecord hlast] at hcounted
          -- after the vote nothing fails
          have hendless : fault = .endless := by
            split at hcounted
            · rcases Outcome.bind_result_error.mp hcounted with hvote | ⟨voted, -, hvoted⟩
              · exact error_of_vote hvote
              · dsimp only at hvoted
                split_ifs at hvoted <;> cases hvoted
            · cases hcounted
          subst hendless
          obtain ⟨values, hvotes, hmany⟩ := votesOn_of_getResponse_endless h
          exact .tooManyResults _ values hvotes hmany

theorem deleteRequest_error {db : ServiceDatabase nmr} {service : ServiceType}
    (h : (db.deleteRequest service c).result = .error fault) :
    fault = .exitFailure ∧ db.servicesDb service = none := by
  cases hrecord : db.servicesDb service with
  | none =>
      rw [ServiceDatabase.deleteRequest, ServiceDatabase.lookup_of_none hrecord] at h
      exact ⟨(Except.error.inj h).symm, rfl⟩
  | some record =>
      rw [ServiceDatabase.deleteRequest_of_some hrecord] at h
      cases h

theorem sweepRecord_error {now : Timespec} {i : ℕ} {state : Option Int32 × ServiceDatabase nmr}
    {pending : RequestRecord}
    (h : (sweepRecord everyone now i state pending).result = .error fault) :
    timeCmp now pending.timeout = 1 ∧ (fault = .endless ∨
      fault = .exitFailure ∧ state.2.servicesDb (UInt32.ofNat i) = none) := by
  unfold sweepRecord at h
  split at h
  · rename_i hexpired
    refine ⟨hexpired, ?_⟩
    rcases Outcome.bind_result_error.mp h with hvote | ⟨⟨ret, result⟩, -, h⟩
    · exact .inl (error_of_vote hvote)
    dsimp only at h
    rw [sendRouter_everyone] at h
    rcases Outcome.bind_result_error.mp h with htell | ⟨_, -, h⟩
    · cases htell
    rcases Outcome.bind_result_error.mp h with hdelete | ⟨db, -, h⟩
    · exact .inr (deleteRequest_error hdelete)
    · cases h
  · cases h

theorem stumbles_of_sweep (htabled : b.Tabled) {now : Timespec}
    (h : (checkPendingRequests everyone b now).result = .error fault) :
    b.Stumbles ⟨connected, .sweep now⟩ fault := by
  by_cases hendless : fault = .endless
  · subst hendless
    obtain ⟨values, hvotes, hmany⟩ := votesOn_of_sweep_endless h
    exact .tooManyResults _ values hvotes hmany
  rcases Outcome.bind_result_error.mp h with h | ⟨_, -, h⟩
  · obtain ⟨before, entry, after, state, hentries, hbefore, h⟩ :=
      Outcome.exists_step_of_foldlM_error h
    have hentry : entry ∈ b.availableServices.zipIdx := by
      rw [hentries]
      exact List.mem_append_right _ List.mem_cons_self
    -- up to here the sweep has only taken records out
    have hsame : SameCopies b.db state.2 := Outcome.foldlM_invariant
      (P := fun t => SameCopies b.db t.2)
      (fun s t entry' _ hs ht => hs.trans (sameCopies_sweepService ht)) (SameCopies.refl _) hbefore
    have hsub := Outcome.foldlM_invariant
      (P := fun t => (t.2.pending entry.1).Sublist (b.db.pending entry.1))
      (fun s t entry' _ hs ht => (pending_sublist_of_sweepService ht entry.1).trans hs)
      (List.Sublist.refl _) hbefore
    have hregistered : state.2.servicesDb entry.1 ≠ none := fun hnone =>
      htabled.registered entry.1 (List.fst_mem_of_mem_zipIdx hentry) (hsame.eq_none_iff.mp hnone)
    obtain ⟨serviceRecord, hrecord⟩ := Option.ne_none_iff_exists'.mp hregistered
    unfold sweepService at h
    rw [ServiceDatabase.getPendingRequests_of_some hrecord, Outcome.pure_bind',
      ← ServiceDatabase.pending_of_some hrecord] at h
    obtain ⟨before', record, after', state', hrecords, hbefore', h⟩ :=
      Outcome.exists_step_of_foldlM_error h
    have hmem : record ∈ state.2.pending entry.1 := by
      rw [hrecords]
      exact List.mem_append_right _ List.mem_cons_self
    have hsame' : SameCopies state.2 state'.2 := Outcome.foldlM_invariant
      (P := fun t => SameCopies state.2 t.2)
      (fun s t record _ hs ht => hs.trans (sameCopies_sweepRecord ht)) (SameCopies.refl _) hbefore'
    obtain ⟨hexpired, hfault | ⟨rfl, hnone⟩⟩ := sweepRecord_error h
    · exact absurd hfault hendless
    · exact .noService now entry hentry record (hsub.subset hmem) hexpired
        ((hsame.trans hsame').eq_none_iff.mp hnone)
  · cases h

theorem stumbles_of_everyone (htabled : b.Tabled) {event : Event}
    (h : (b.handle everyone event).result = .error fault) :
    b.Stumbles ⟨connected, event⟩ fault := by
  cases event with
  | registration rm now => exact stumbles_of_getRegistration h
  | request c request now later => exact stumbles_of_getRequest htabled h
  | response index reply c => exact stumbles_of_getResponse h
  | heartbeat i now later =>
      -- the deadlines and the services stand at the same positions
      obtain ⟨b', hb'⟩ := heartbeat_ok_of_tabled htabled i
      rw [show (b.handle everyone (.heartbeat i now later)).result = .ok b' from hb'] at h
      cases h
  | sweep now => exact stumbles_of_sweep htabled h

/-- **Every fault of a call is on the list.** -/
theorem stumbles_of_error (htabled : b.Tabled) {moment : Moment}
    (h : (b.handle moment.connected moment.event).result = .error fault) :
    b.Stumbles moment fault := by
  obtain ⟨connected, event⟩ := moment
  by_cases hattended : b.Attended ⟨connected, event⟩
  · rw [handle_of_attended hattended] at h
    exact stumbles_of_everyone htabled h
  · rw [handle_eq_cutOff, cutOff, Outcome.gate] at h
    dsimp only at h
    split at h
    · exact stumbles_of_everyone htabled h
    · obtain rfl := Except.error.inj h
      exact .clientGone _ hattended

/-! ## The loop -/

/-- **A loop that ends has stumbled**, over the first call that fails: everything before it has
returned. -/
theorem loop_stumbles {portRouter portReg : UInt16} {wakeUps : List WakeUp}
    (h : ((init portRouter portReg : Broker nmr).step wakeUps).result = .error fault) :
    ∃ before moment after, ∃ b : Broker nmr,
      (init portRouter portReg : Broker nmr).schedule wakeUps = before ++ moment :: after ∧
      ((init portRouter portReg : Broker nmr).run before).result = .ok b ∧
      (b.handle moment.connected moment.event).result = .error fault ∧
      b.Stumbles moment fault := by
  have hrun : ((init portRouter portReg : Broker nmr).run
      ((init portRouter portReg : Broker nmr).schedule wakeUps)).result = .error fault := by
    rw [← outputs_step_of_laid (laid_init portRouter portReg)]
    exact h
  obtain ⟨before, moment, after, b, hschedule, hbefore, hfault⟩ :=
    Outcome.exists_step_of_foldlM_error hrun
  have htabled : b.Tabled := Outcome.foldlM_invariant (P := Tabled)
    (fun s t moment _ hs ht => hs.handle ht) (tabled_init portRouter portReg) hbefore
  exact ⟨before, moment, after, b, hschedule, hbefore, hfault, stumbles_of_error htabled hfault⟩

/-- One copy of three registers, and a client asks for the service. -/
def hastyWakeUps : List WakeUp :=
  [{ now := ⟨0, 0⟩, healthCheckerPing := false, registration := some (⟨"pippo", 0⟩, ⟨0, 0⟩),
     request := some (7, ⟨0, Vector.replicate paramSize 0⟩, ⟨0, 0⟩, ⟨0, 0⟩),
     reply := fun _ => none, renewed := fun _ => ⟨0, 0⟩, swept := ⟨0, 0⟩,
     connected := fun _ => everyone }]

theorem loop_stumbles_hastyWakeUps :
    ((init 5559 5560 : Broker 3).step hastyWakeUps).result = .error .outOfRange ∧
    ∃ before moment after, ∃ b : Broker 3,
      (init 5559 5560 : Broker 3).schedule hastyWakeUps = before ++ moment :: after ∧
      ((init 5559 5560 : Broker 3).run before).result = .ok b ∧
      (b.handle moment.connected moment.event).result = .error .outOfRange ∧
      b.Stumbles moment .outOfRange :=
  have h : ((init 5559 5560 : Broker 3).step hastyWakeUps).result = .error .outOfRange := rfl
  ⟨h, loop_stumbles h⟩

end ReliableService.Broker
