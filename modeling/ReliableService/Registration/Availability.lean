import ReliableService.Registration.Tables

/-!
# Which requests are forwarded

`get_request` asks the database whether the service is registered, and the database says
yes from the first copy on.  The socket it then indexes exists only from the last copy on.
In between, a request runs past the end of `dealer` or of `timeout`, or is forwarded on a
socket of another service.

`gated_iff` is the exact condition, for every reachable state and every request.  The
heartbeat path indexes the same vectors by position and is always in range
(`heartbeat_ok_of_tabled`).
-/

namespace ReliableService.Broker

open ServiceRecord

variable {nmr : UInt8} {b : Broker nmr} {c : ClientId} {request : RequestModule}
  {now later : Timespec}

/-- A request for a service that is not available is refused and changes nothing; a request
for an available one is forwarded. -/
structure Gated (b : Broker nmr) (c : ClientId) (request : RequestModule)
    (now later : Timespec) : Prop where
  refused : request.service ∉ b.availableServices →
    getRequest everyone b c request now later =
      ⟨[.router c ⟨.serviceNotAvailable, none⟩], .ok b⟩
  forwarded : request.service ∈ b.availableServices →
    (∃ b', (getRequest everyone b c request now later).result = .ok b') ∧
      ∃ index sm, .dealer index c sm ∈ (getRequest everyone b c request now later).sent ∧
        sm.heartbeat = false ∧ sm.parameters = some request.parameters

/-- The service has no copy at all, or it is available, its socket index is in range and at
least one copy counts as reliable. -/
def Routed (b : Broker nmr) (service : ServiceType) : Prop :=
  match b.db.servicesDb service with
  | none => True
  | some record => service ∈ b.availableServices ∧
      record.dealerSktIndex.toNat < b.dealer.length ∧ record.numCopiesReliable ≠ 0

/-- A request for a routed service. -/
theorem getRequest_of_routed (htabled : b.Tabled) {record : ServiceRecord nmr}
    (hrecord : b.db.servicesDb request.service = some record)
    (hmem : request.service ∈ b.availableServices)
    (hrange : record.dealerSktIndex.toNat < b.dealer.length) (c : ClientId)
    (now later : Timespec) :
    (∃ b', (getRequest everyone b c request now later).result = .ok b') ∧
      (getRequest everyone b c request now later).sent =
        List.replicate record.numCopiesReliable.toNat
          (.dealer record.dealerSktIndex.toNat c (forward record request)) := by
  have hidx : b.availableServices.idxOf request.service < b.timeout.length := by
    rw [htabled.timeout_length]
    exact List.idxOf_lt_length_iff.mpr hmem
  refine ⟨?_, getRequest_sent_of_lt hrecord hrange c now later⟩
  rw [getRequest_of_some hrecord, sendCopies_of_lt hrange, Outcome.bind_of_ok rfl]
  unfold updateTimeout
  dsimp only
  rw [if_pos hidx]
  exact ⟨_, rfl⟩

/-- **Availability gating holds exactly for routed services.** -/
theorem gated_iff_of_tabled (htabled : b.Tabled) :
    b.Gated c request now later ↔ b.Routed request.service := by
  unfold Routed
  cases hrecord : b.db.servicesDb request.service with
  | none =>
      refine iff_of_true ⟨fun _ => getRequest_of_none hrecord, ?_⟩ trivial
      intro hmem
      exact absurd hrecord (htabled.registered _ hmem)
  | some record =>
      refine ⟨?_, ?_⟩
      · intro hgated
        have hmem : request.service ∈ b.availableServices := by
          -- a registered service is never refused
          by_contra hnot
          have hrefused := congrArg Outcome.sent (hgated.refused hnot)
          have hsent : Output.router c ⟨.serviceNotAvailable, none⟩ ∈
              (getRequest everyone b c request now later).sent := by simp [hrefused]
          cases mem_getRequest_sent hrecord hsent
        obtain ⟨⟨b', hb'⟩, index, sm, hsent, -⟩ := hgated.forwarded hmem
        obtain ⟨hrange, -, heq, -⟩ := getRequest_ok hrecord hb'
        rw [heq] at hsent
        have hcopies := (List.mem_replicate.mp hsent).1
        exact ⟨hmem, hrange.resolve_left hcopies,
          fun hzero => hcopies (congrArg UInt8.toNat hzero)⟩
      · rintro ⟨hmem, hrange, hcopies⟩
        obtain ⟨hok, hsent⟩ := getRequest_of_routed htabled hrecord hmem hrange c now later
        refine ⟨fun hnot => absurd hmem hnot, fun _ => ⟨hok, record.dealerSktIndex.toNat,
          forward record request, ?_, rfl, rfl⟩⟩
        rw [hsent, List.mem_replicate]
        exact ⟨fun hzero => hcopies (UInt8.toNat_inj.mp hzero), rfl⟩

/-- The heartbeat of every position is in range. -/
theorem heartbeat_ok_of_tabled (htabled : b.Tabled) (i : ℕ) :
    ∃ b', (b.heartbeat i now later).result = .ok b' := by
  by_cases hdue : b.Due i now
  · obtain ⟨deadline, hdeadline, -⟩ := id hdue
    have hlt : i < b.availableServices.length := by
      rw [← htabled.timeout_length]
      exact (List.getElem?_eq_some_iff.mp hdeadline).1
    have hnarrow : (UInt8.ofNat i).toNat < b.availableServices.length :=
      calc (UInt8.ofNat i).toNat = i % 2 ^ 8 := UInt8.toNat_ofNat'
        _ ≤ i := Nat.mod_le ..
        _ < b.availableServices.length := hlt
    obtain ⟨record, hrecord⟩ := Option.ne_none_iff_exists'.mp
      (htabled.registered b.availableServices[i] (List.getElem_mem hlt))
    -- `check_pong` writes its record back, so every available service keeps one
    have hall : ∀ service ∈ b.availableServices,
        (b.db.insert b.availableServices[i] record.checkPong).servicesDb service ≠ none := by
      intro service hmem
      by_cases hself : service = b.availableServices[i]
      · simp [hself]
      · rw [ServiceDatabase.insert_of_ne b.db hself]
        exact htabled.registered service hmem
    obtain ⟨counted, hcounted⟩ := Option.ne_none_iff_exists'.mp
      (hall _ (List.getElem_mem hnarrow))
    have hidx : b.availableServices.idxOf b.availableServices[i] < b.timeout.length := by
      rw [htabled.timeout_length]
      exact List.idxOf_lt_length_iff.mpr (List.getElem_mem hlt)
    rw [heartbeat_of_due hdue (List.getElem?_eq_getElem hlt),
      ServiceDatabase.checkPong_of_some hrecord, Outcome.pure_bind']
    unfold pingServer updateTimeout
    simp only [ServiceDatabase.getPingId_of_some (ServiceDatabase.insert_self ..),
      Outcome.pure_bind', List.getElem?_eq_getElem hnarrow,
      ServiceDatabase.getReliableCopies_of_some hcounted, if_pos hidx]
    rw [sendCopies_of_lt (htabled.dealer_length.symm ▸ hnarrow), Outcome.bind_of_ok rfl]
    exact ⟨_, rfl⟩
  · rw [heartbeat_of_not_due hdue]
    exact ⟨b, rfl⟩

/-- **Availability gating**, in every state a run reaches and for every request: it holds
exactly for services that are routed.  The heartbeats of the same state stay in range
whatever is registered. -/
theorem gated_iff {portRouter portReg : UInt16} {moments : List Moment}
    (hrun : ((init portRouter portReg : Broker nmr).run moments).result = .ok b) :
    (∀ c request now later, b.Gated c request now later ↔ b.Routed request.service) ∧
      ∀ i now later, ∃ b', (b.heartbeat i now later).result = .ok b' :=
  have htabled := tabled_run hrun
  ⟨fun _ _ _ _ => gated_iff_of_tabled htabled, fun i _ _ => heartbeat_ok_of_tabled htabled i⟩

/-- One of two copies has registered. -/
def halfDeployed : List Moment := [⟨everyone, .registration ⟨"pippo", 0⟩ ⟨0, 0⟩⟩]

theorem gated_iff_halfDeployed :
    ∃ b, ((init 5559 5555 : Broker 2).run halfDeployed).result = .ok b ∧
      (∀ c request now later, b.Gated c request now later ↔ b.Routed request.service) ∧
        ∀ i now later, ∃ b', (b.heartbeat i now later).result = .ok b' := by
  have hrun : ((init 5559 5555 : Broker 2).run halfDeployed).result =
      .ok ((init 5559 5555).registered ⟨"pippo", 0⟩) := rfl
  exact ⟨_, hrun, gated_iff hrun⟩

/-- **A request between the first and the last registration of its service** is not
refused: the broker reads `dealer` past its end. -/
theorem half_deployed_not_refused :
    ¬ ∀ (nmr : UInt8) (portRouter portReg : UInt16) (moments : List Moment) (b : Broker nmr),
      ((init portRouter portReg : Broker nmr).run moments).result = .ok b →
        ∀ c request now later, b.Gated c request now later := by
  intro h
  have hrun : ((init 5559 5555 : Broker 2).run halfDeployed).result =
      .ok ((init 5559 5555).registered ⟨"pippo", 0⟩) := rfl
  have hgated := h 2 5559 5555 halfDeployed _ hrun 7 ⟨0, Vector.replicate paramSize 0⟩
    ⟨0, 0⟩ ⟨0, 0⟩
  have hsent := congrArg (fun m => m.sent.length) (hgated.refused (by decide))
  exact absurd hsent (by decide +kernel)

end ReliableService.Broker
