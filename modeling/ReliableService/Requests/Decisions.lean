import ReliableService.Clients.Disconnect
import ReliableService.Requests.AtMostOnce
import ReliableService.Voting.Incremental

/-!
# Between two steps no record is decided

A record leaves the database with the result that decides it, so in between every record
is short of a decision (`Broker.Open`): fewer than `nmr` results, no winner among them, and
nobody has two records.  It follows that `vote` is never run on more than `nmr` results and
that a record that expires is always refused.

A reply keeps this up only while each client has at most one record.  A sweep that is not
aligned answers a client and leaves its record behind; the next request of that client
makes it two, and `push_result` then reports the length of the last one only.
-/

namespace ReliableService

open ServiceRecord Majority

variable {nmr : UInt8} {fit : ℕ → List Int32 → Prop} {good : ℕ → ResponseModule → Prop}
  {l : Ledger} {b b' : Broker nmr} {c : ClientId}

namespace Broker

/-- `vote` is run on these results when the event is handled. -/
def VotesOn (b : Broker nmr) (values : List Int32) : Event → Prop
  | .response _ reply c => b.Counts reply c ∧
      ∃ last ∈ (ofClient c (b.db.pending reply.service)).getLast?,
        nmr.toNat / 2 < last.results.length + 1 ∧ values = last.results ++ [reply.result]
  | .sweep now => ∃ service ∈ b.availableServices, ∃ record ∈ b.db.pending service,
      timeCmp now record.timeout = 1 ∧ values = record.results
  | _ => False

/-! ## What follows for the voter -/

theorem lookup_ne_endless (db : ServiceDatabase nmr) (service : ServiceType) :
    (db.lookup service).result ≠ .error .endless := by
  unfold ServiceDatabase.lookup
  split <;> simp

theorem deleteRequest_ne_endless (db : ServiceDatabase nmr) (service : ServiceType)
    (c : ClientId) : (db.deleteRequest service c).result ≠ .error .endless :=
  Outcome.bind_result_ne_error (lookup_ne_endless db service) fun _ _ => by simp

theorem sendCopies_ne_endless (b : Broker nmr) (index : ℕ) (envelope : ClientId)
    (sm : ServiceModule) (n : ℕ) :
    (b.sendCopies index envelope sm n).result ≠ .error .endless := by
  by_cases hlt : index < b.dealer.length
  · rw [sendCopies_of_lt hlt]
    simp
  · rcases Nat.eq_zero_or_pos n with rfl | hn
    · simp [sendCopies_zero]
    · rw [sendCopies_of_not_lt hlt envelope sm hn]
      simp

theorem updateTimeout_ne_endless (b : Broker nmr) (service : ServiceType) (now : Timespec) :
    (b.updateTimeout service now).result ≠ .error .endless := by
  unfold updateTimeout
  dsimp only
  split <;> simp

theorem pingServer_ne_endless (b : Broker nmr) (i : UInt8) (service : ServiceType) :
    (b.pingServer i service).result ≠ .error .endless := by
  apply Outcome.bind_result_ne_error
  · exact Outcome.bind_result_ne_error (lookup_ne_endless b.db service) fun _ _ => by simp
  · intro seqId _
    split
    · simp
    · rename_i counted _
      apply Outcome.bind_result_ne_error
      · exact Outcome.bind_result_ne_error (lookup_ne_endless b.db counted) fun _ _ => by simp
      · intro copies _
        exact sendCopies_ne_endless _ _ _ _ _

/-- Only the voter has a loop that may not end. -/
theorem length_of_vote_endless {values : List Int32} {before : Option Int32}
    (h : (vote nmr values before).result = .error .endless) : 256 ≤ values.length := by
  unfold vote at h
  split at h
  · assumption
  · dsimp only at h
    repeat' split at h
    all_goals cases h

theorem getRegistration_ne_endless (b : Broker nmr) (rm : RegistrationModule) (now : Timespec) :
    (b.getRegistration rm now).result ≠ .error .endless := by
  rw [getRegistration_eq]
  apply Outcome.bind_result_ne_error
  · split
    · refine Outcome.bind_result_ne_error ?_ fun _ _ => by simp
      unfold addDealer
      split <;> simp
    · simp
  · intro b' _
    exact Outcome.bind_result_ne_error (by simp) fun _ _ => by simp

theorem getRequest_ne_endless (b : Broker nmr) (c : ClientId) (request : RequestModule)
    (now later : Timespec) :
    (getRequest everyone b c request now later).result ≠ .error .endless := by
  cases hrecord : b.db.servicesDb request.service with
  | none =>
      rw [getRequest_of_none hrecord]
      simp
  | some record =>
      rw [getRequest_of_some hrecord]
      exact Outcome.bind_result_ne_error (sendCopies_ne_endless _ _ _ _ _)
        fun _ _ => updateTimeout_ne_endless _ _ _

theorem heartbeat_ne_endless (b : Broker nmr) (i : ℕ) (now later : Timespec) :
    (b.heartbeat i now later).result ≠ .error .endless := by
  by_cases hdue : b.Due i now
  · cases hservice : b.availableServices[i]? with
    | none =>
        obtain ⟨deadline, hdeadline, hcmp⟩ := hdue
        rw [heartbeat, hdeadline]
        dsimp only
        rw [if_pos hcmp, hservice]
        simp
    | some service =>
        rw [heartbeat_of_due hdue hservice]
        apply Outcome.bind_result_ne_error
        · unfold ServiceDatabase.checkPong
          split <;> simp
        · intro db _
          exact Outcome.bind_result_ne_error (pingServer_ne_endless _ _ _)
            fun _ _ => updateTimeout_ne_endless _ _ _
  · rw [heartbeat_of_not_due hdue]
    simp

theorem votesOn_of_getResponse_endless {index : ℕ} {reply : ServerReply}
    (h : (Broker.getResponse everyone b index reply c).result = .error .endless) :
    ∃ values, b.VotesOn values (.response index reply c) ∧ 256 ≤ values.length := by
  by_cases hpong : reply.heartbeat = true
  · rw [getResponse_pong hpong] at h
    refine absurd h (Outcome.bind_result_ne_error ?_ fun _ _ => by simp)
    refine Outcome.bind_result_ne_error (lookup_ne_endless _ _) ?_
    intro record _
    split <;> simp
  rw [Bool.not_eq_true] at hpong
  by_cases hdup : reply.duplicated = true
  · rw [getResponse_duplicated hpong hdup] at h
    cases h
  rw [Bool.not_eq_true] at hdup
  cases hrecord : b.db.servicesDb reply.service with
  | none =>
      rw [Broker.getResponse, if_neg (by simp [hpong]), if_neg (by simp [hdup]),
        ServiceDatabase.pushResult, ServiceDatabase.lookup_of_none hrecord] at h
      cases h
  | some record =>
      have hstored := ServiceDatabase.pending_of_some hrecord
      cases hlast : (ofClient c record.requestRecords).getLast? with
      | none =>
          rw [getResponse_unclaimed hpong hdup hrecord (List.getLast?_eq_none_iff.mp hlast)] at h
          cases h
      | some last =>
          rw [getResponse_counted hpong hdup hrecord hlast] at h
          split at h
          · rename_i hmajority
            rcases Outcome.bind_result_error.mp h with h | ⟨⟨ret, result⟩, -, h⟩
            · refine ⟨_, ⟨⟨hpong, hdup, ?_⟩, last, by rwa [hstored], hmajority, rfl⟩,
                length_of_vote_endless h⟩
              rw [hstored]
              exact List.ne_nil_of_mem (mem_ofClient.mpr
                (mem_ofClient.mp (List.mem_of_getLast? hlast)))
            · dsimp only at h
              split_ifs at h <;> cases h
          · cases h

theorem votesOn_of_sweep_endless {now : Timespec}
    (h : (checkPendingRequests everyone b now).result = .error .endless) :
    ∃ values, b.VotesOn values (.sweep now) ∧ 256 ≤ values.length := by
  rcases Outcome.bind_result_error.mp h with h | ⟨_, -, h⟩
  · obtain ⟨before, entry, after, state, hentries, hbefore, h⟩ :=
      Outcome.exists_step_of_foldlM_error h
    have hentry : entry ∈ b.availableServices.zipIdx := by
      rw [hentries]
      exact List.mem_append_right _ List.mem_cons_self
    have hsub := Outcome.foldlM_invariant
      (P := fun t => (t.2.pending entry.1).Sublist (b.db.pending entry.1))
      (fun s t entry' _ hs ht => (pending_sublist_of_sweepService ht entry.1).trans hs)
      (List.Sublist.refl _) hbefore
    rcases Outcome.bind_result_error.mp h with h | ⟨records, hrecords, h⟩
    · exact absurd h (Outcome.bind_result_ne_error (lookup_ne_endless _ _) fun _ _ => by simp)
    obtain ⟨before', record, after', state', rfl, -, h⟩ := Outcome.exists_step_of_foldlM_error h
    have hmem : record ∈ state.2.pending entry.1 := by
      cases hrecord : state.2.servicesDb entry.1 with
      | none =>
          rw [ServiceDatabase.getPendingRequests,
            ServiceDatabase.lookup_of_none hrecord] at hrecords
          cases hrecords
      | some serviceRecord =>
          rw [ServiceDatabase.getPendingRequests_of_some hrecord] at hrecords
          rw [ServiceDatabase.pending_of_some hrecord, Except.ok.inj hrecords]
          exact List.mem_append_right _ List.mem_cons_self
    unfold sweepRecord at h
    split_ifs at h with hexpired
    · refine ⟨record.results, ⟨entry.1, List.fst_mem_of_mem_zipIdx hentry, record,
        hsub.subset hmem, hexpired, rfl⟩, ?_⟩
      rcases Outcome.bind_result_error.mp h with h | ⟨⟨ret, result⟩, -, h⟩
      · exact length_of_vote_endless h
      · exact absurd h (Outcome.bind_result_ne_error (by simp) fun _ _ =>
          Outcome.bind_result_ne_error (deleteRequest_ne_endless _ _ _) fun _ _ => by simp)
  · cases h

/-- **A handler that does not end is in `vote`**, on 256 results or more. -/
theorem votesOn_of_endless {event : Event}
    (h : (b.handle everyone event).result = .error .endless) :
    ∃ values, b.VotesOn values event ∧ 256 ≤ values.length := by
  cases event with
  | registration rm now => exact absurd h (getRegistration_ne_endless b rm now)
  | request c request now later => exact absurd h (getRequest_ne_endless b c request now later)
  | response index reply c => exact votesOn_of_getResponse_endless h
  | heartbeat i now later => exact absurd h (heartbeat_ne_endless b i now later)
  | sweep now => exact votesOn_of_sweep_endless h

theorem Open.length_le_of_votesOn (h : b.Open) {values : List Int32} {event : Event}
    (hvotes : b.VotesOn values event) : values.length ≤ nmr.toNat := by
  cases event with
  | registration rm now => exact hvotes.elim
  | request c request now later => exact hvotes.elim
  | response index reply c =>
      obtain ⟨-, last, hlast, -, rfl⟩ := hvotes
      have hmem := (mem_ofClient.mp (List.mem_of_getLast? (Option.mem_def.mp hlast))).1
      have := (h.undecided reply.service last hmem).1
      rw [List.length_append, List.length_singleton]
      omega
  | heartbeat i now later => exact hvotes.elim
  | sweep now =>
      obtain ⟨service, -, record, hmem, -, rfl⟩ := hvotes
      exact (h.undecided service record hmem).1.le

/-- The vote over an undecided record refuses. -/
theorem refused_of_undecided {values : List Int32} (h : Undecided nmr values)
    {before result : Option Int32} {ret : Int8}
    (hvote : (vote nmr values before).result = .ok (ret, result)) : ¬ 0 ≤ ret := by
  intro hret
  obtain ⟨v, -, hwins⟩ := vote_sound hvote hret
  exact h.2 v hwins

/-- A sweep reports nothing as available. -/
theorem Open.refused (h : b.Open) {now : Timespec} {response : ResponseModule}
    (hsent : .router c response ∈ (checkPendingRequests everyone b now).sent) :
    response.serviceStatus = .serviceNotReliable := by
  obtain ⟨service, -, record, hmem, -, before, ret, result, hvote, heq⟩ := expired_of_mem_sent hsent
  rw [(Output.router.inj heq).2]
  exact if_neg (refused_of_undecided (h.undecided service record hmem) hvote)

/-! ## The invariant -/

theorem Open.of_sublist (h : b.Open)
    (hsub : ∀ service, (b'.db.pending service).Sublist (b.db.pending service)) : b'.Open where
  single service c :=
    calc (ofClient c (b'.db.pending service)).length
        ≤ (ofClient c (b.db.pending service)).length := ((hsub service).filter _).length_le
      _ ≤ 1 := h.single service c
  undecided service record hmem := h.undecided service record ((hsub service).subset hmem)

theorem Open.congr (h : b.Open) (hsame : SamePending b.db b'.db) : b'.Open :=
  h.of_sublist fun service => by rw [hsame service]

/-- A reply that is handled came from a registered service. -/
theorem admissible_of_ok {a : Arrival} (h : (b.receive a).result = .ok b') : b.Admissible a := by
  refine ⟨?_, ?_⟩
  · rintro ⟨hpong, hdup⟩ hnone
    rw [receive, getResponse, if_neg (by simp [hpong]), if_neg (by simp [hdup]),
      ServiceDatabase.pushResult, ServiceDatabase.lookup_of_none hnone] at h
    cases h
  · intro hpong
    obtain ⟨record, hrecord, hid, -⟩ := getResponse_pong_ok hpong h
    exact ⟨by simp [hrecord], hid⟩

theorem Open.getResponse (h : b.Open) (index : ℕ) {reply : ServerReply}
    (hb' : (Broker.getResponse everyone b index reply c).result = .ok b') : b'.Open := by
  change (b.receive ⟨index, reply, c⟩).result = .ok b' at hb'
  obtain ⟨t, ht, harrives, -⟩ := arrives h (admissible_of_ok hb')
  obtain rfl : t = b' := Except.ok.inj (ht.symm.trans hb')
  exact harrives.open h

/-- A request of a client without records. -/
theorem Open.getRequest (h : b.Open) (hnmr : 1 ≤ nmr.toNat) {request : RequestModule}
    {now later : Timespec} (hnil : ofClient c (b.db.pending request.service) = [])
    (hb' : (Broker.getRequest everyone b c request now later).result = .ok b') : b'.Open := by
  cases hrecord : b.db.servicesDb request.service with
  | none =>
      rw [getRequest_of_none hrecord] at hb'
      rw [← Except.ok.inj hb']
      exact h
  | some record =>
      obtain ⟨-, -, -, rfl⟩ := getRequest_ok hrecord hb'
      have hstored := ServiceDatabase.pending_of_some hrecord
      have hself : (filed b.db record c request.service now).pending request.service =
          b.db.pending request.service ++ [⟨c, [], timeAddMs now requestTimeout⟩] := by
        rw [hstored]
        exact ServiceDatabase.pending_insert_self ..
      have hother : ∀ service, service ≠ request.service →
          (filed b.db record c request.service now).pending service = b.db.pending service :=
        fun service hne => (ServiceDatabase.pending_insert_of_ne _ hne _).trans
          (ServiceDatabase.pending_insert_of_ne _ hne _)
      refine ⟨?_, ?_⟩
      · intro service c'
        show (ofClient c' ((filed b.db record c request.service now).pending service)).length ≤ 1
        by_cases hservice : service = request.service
        · rw [hservice, hself, ofClient_append]
          by_cases hclient : c' = c
          · rw [hclient, hnil]
            simp [ofClient]
          · simpa [ofClient, Ne.symm hclient] using h.single request.service c'
        · rw [hother service hservice]
          exact h.single service c'
      · intro service pending hmem
        change pending ∈ (filed b.db record c request.service now).pending service at hmem
        by_cases hservice : service = request.service
        · rw [hservice, hself, List.mem_append, List.mem_singleton] at hmem
          rcases hmem with hmem | rfl
          · exact h.undecided _ pending hmem
          · exact ⟨hnmr, fun v hv => by simp [Wins] at hv⟩
        · rw [hother service hservice] at hmem
          exact h.undecided service pending hmem

theorem Open.sweep (h : b.Open) {now : Timespec}
    (hb' : (checkPendingRequests everyone b now).result = .ok b') : b'.Open := by
  obtain ⟨⟨result, db⟩, hsweep, hb'⟩ := Outcome.bind_result_ok.mp hb'
  rw [← Except.ok.inj hb']
  apply h.of_sublist
  intro service
  exact Outcome.foldlM_invariant
    (P := fun t => (t.2.pending service).Sublist (b.db.pending service))
    (fun s t entry _ hs ht => (pending_sublist_of_sweepService ht service).trans hs)
    (List.Sublist.refl _) hsweep

/-- **One call keeps the broker open**, if clients ask one request at a time. -/
theorem Open.handle (h : b.Open) (hnmr : 1 ≤ nmr.toNat) {event : Event}
    (hidle : ∀ c request now later, event = .request c request now later →
      ofClient c (b.db.pending request.service) = [])
    (hb' : (b.handle everyone event).result = .ok b') : b'.Open := by
  cases event with
  | registration rm now => exact h.congr (samePending_getRegistration hb')
  | request c request now later => exact h.getRequest hnmr (hidle c request now later rfl) hb'
  | response index reply c => exact h.getResponse index hb'
  | heartbeat i now later => exact h.congr (samePending_heartbeat hb')
  | sweep now => exact h.sweep hb'

end Broker

/-! ## Runs -/

namespace Session

variable {s s' : Session nmr}

/-- What holds of the broker between two steps. -/
structure Undecided (s : Session nmr) : Prop where
  short : ∀ b ∈ s.broker, ∀ service, ∀ record ∈ b.db.pending service,
    record.results.length < nmr.toNat
  no_winner : ∀ b ∈ s.broker, ∀ service, ∀ record ∈ b.db.pending service, ∀ v,
    record.results.count v ≤ nmr.toNat / 2
  single : ∀ b ∈ s.broker, ∀ service c,
    ((b.db.pending service).filter (·.clientId = c)).length ≤ 1
  votes : ∀ b ∈ s.broker, ∀ event values, b.VotesOn values event → values.length ≤ nmr.toNat
  ends : ∀ b ∈ s.broker, ∀ event, (b.handle Broker.everyone event).result ≠ .error .endless
  refused : ∀ b ∈ s.broker, ∀ now c response,
    .router c response ∈ (Broker.checkPendingRequests Broker.everyone b now).sent →
      response.serviceStatus = .serviceNotReliable

theorem undecided_of_open (h : ∀ b ∈ s.broker, b.Open) : s.Undecided where
  short b hb service record hmem := ((h b hb).undecided service record hmem).1
  no_winner b hb service record hmem v :=
    not_lt.mp (((h b hb).undecided service record hmem).2 v)
  single b hb := (h b hb).single
  votes b hb event values hvotes := (h b hb).length_le_of_votesOn hvotes
  ends b hb event hendless := by
    obtain ⟨values, hvotes, hlong⟩ := Broker.votesOn_of_endless hendless
    have := (h b hb).length_le_of_votesOn hvotes
    have := nmr.toNat_lt
    omega
  refused b hb now c response hsent := (h b hb).refused hsent

theorem open_init (portRouter portReg : UInt16) :
    ∀ b ∈ (init portRouter portReg : Session nmr).broker, b.Open := by
  intro b hb
  obtain rfl := Option.some.inj (Option.mem_def.mp hb)
  exact ⟨fun _ _ => Nat.zero_le 1, fun _ _ hmem => absurd hmem List.not_mem_nil⟩

/-- The clients' side says that a client that may ask has no record. -/
theorem open_step (hnmr : 1 ≤ nmr.toNat) (hopen : ∀ b ∈ s.broker, b.Open)
    (hbooks : s.InOrder fit good) {event : Event} (hstep : s.step event = some s') :
    ∀ b ∈ s'.broker, b.Open := by
  obtain ⟨b, hb, hadmits, rfl⟩ := step_eq_some hstep
  intro b' hb'
  apply (hopen b hb).handle hnmr ?_ (Outcome.toOption_eq_some.mp hb')
  rintro c request now later rfl
  exact (hbooks.2 b hb).ofClient_nil (Ledger.idle_iff.mp hadmits) request.service

theorem open_of_aligned (hnmr : 1 ≤ nmr.toNat) {portRouter portReg : UInt16}
    {events : List Event}
    (haligned : Machine.Along step SweepAligned (init portRouter portReg : Session nmr) events)
    (hrun : Machine.run step (init portRouter portReg) events = some s) :
    ∀ b ∈ s.broker, b.Open :=
  (Machine.run_invariant (P := fun s => s.Orderly ∧ ∀ b ∈ s.broker, b.Open)
    (fun _ _ _ h hok hstep => ⟨Orderly.step h.1 hok hstep, open_step hnmr h.2 h.1 hstep⟩)
    ⟨inOrder_init _ _ portRouter portReg, open_init portRouter portReg⟩ haligned hrun).2

/-- **Between two steps no record is decided**, in every run with aligned sweeps. -/
theorem undecided_of_aligned (hnmr : 1 ≤ nmr) (portRouter portReg : UInt16) (events : List Event)
    (haligned : Machine.Along step SweepAligned (init portRouter portReg : Session nmr) events)
    {s : Session nmr} (hrun : Machine.run step (init portRouter portReg) events = some s) :
    s.Undecided :=
  undecided_of_open (open_of_aligned (UInt8.le_iff_toNat_le.mp hnmr) haligned hrun)

/-- Service `0` is complete; the record of its client gets one result and expires. -/
def halfAnsweredRun : List Event :=
  [.registration ⟨"pippo", 0⟩ ⟨0, 0⟩, .registration ⟨"pippo", 0⟩ ⟨0, 0⟩,
    .request 7 ⟨0, Vector.replicate paramSize 0⟩ ⟨0, 0⟩ ⟨0, 0⟩,
    .response 0 ⟨false, false, 1, 0, 0⟩ 7, .sweep ⟨10, 0⟩,
    .request 7 ⟨0, Vector.replicate paramSize 0⟩ ⟨10, 0⟩ ⟨10, 0⟩]

theorem undecided_halfAnsweredRun :
    ∃ s, Machine.run step (init 5559 5555 : Session 2) halfAnsweredRun = some s ∧ s.Undecided := by
  have hrun : (Machine.run step (init 5559 5555 : Session 2) halfAnsweredRun).isSome := by
    decide +kernel
  exact ⟨_, (Option.some_get hrun).symm, undecided_of_aligned (by decide) 5559 5555
    halfAnsweredRun (by decide +kernel) (Option.some_get hrun).symm⟩

/-- Service `1` is complete and first in line.  Its client is answered by a sweep that leaves
the record, and asks again; the two copies answer. -/
def twoRecordsRun : List Event :=
  [.registration ⟨"pippo", 1⟩ ⟨0, 0⟩, .registration ⟨"pippo", 1⟩ ⟨0, 0⟩,
    .registration ⟨"pippo", 0⟩ ⟨0, 0⟩,
    .request 7 ⟨1, Vector.replicate paramSize 0⟩ ⟨0, 0⟩ ⟨0, 0⟩, .sweep ⟨10, 0⟩,
    .request 7 ⟨1, Vector.replicate paramSize 0⟩ ⟨10, 0⟩ ⟨10, 0⟩]

/-- **One record is left behind, and the next request makes it two.** -/
theorem two_records :
    ¬ ∀ (nmr : UInt8) (portRouter portReg : UInt16) (events : List Event) (s : Session nmr),
      1 ≤ nmr → Machine.run step (init portRouter portReg) events = some s → s.Undecided := by
  intro h
  have hrecords : (Machine.run step (init 5559 5555 : Session 2) twoRecordsRun).map
      (fun s => s.broker.map fun b => ((b.db.pending 1).filter (·.clientId = 7)).length) =
        some (some 2) := by decide +kernel
  obtain ⟨s, hrun, hs⟩ := Option.map_eq_some_iff.mp hrecords
  obtain ⟨b, hb, hlength⟩ := Option.map_eq_some_iff.mp hs
  have := (h 2 5559 5555 twoRecordsRun s (by decide) hrun).single b hb 1 7
  omega

end Session

end ReliableService
