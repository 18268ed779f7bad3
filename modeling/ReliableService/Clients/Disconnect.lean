import ReliableService.Handlers.Effects
import ReliableService.Lib.Machine

/-!
# Runs in which clients go away

`ZMQ_ROUTER_MANDATORY` is set and no `try` stands between `send_multi_msg` and `step`, so a
response to a client that is gone ends the process.  A `Moment` is a call of a handler
together with the clients that are connected while it runs.

`Attended` says for one call, by looking at the state before it, that everybody the
handler is going to answer is connected.  Along such a run the broker does exactly what it
does when nobody goes away (`run_eq_of_attended`); one call that is not attended is enough
to end it (`gone_client_ends_broker`).
-/

namespace ReliableService

open ServiceRecord Majority

/-- One call of a handler, and the clients that are connected. -/
structure Moment where
  connected : ClientId → Bool
  event : Event

/-- The same call, with every client still there. -/
def Moment.staying (moment : Moment) : Moment := { moment with connected := Broker.everyone }

namespace Broker

variable {nmr : UInt8} {b : Broker nmr} {c : ClientId}

/-- A run of the broker. -/
def run (b : Broker nmr) (moments : List Moment) : Effect (Broker nmr) :=
  moments.foldlM (fun b moment => b.handle moment.connected moment.event) b

/-- One call as a step: no state once the process has ended. -/
def survive (b : Broker nmr) (moment : Moment) : Option (Broker nmr) :=
  (b.handle moment.connected moment.event).result.toOption

/-- The reply brings the client's last record to a decision: a value wins, or all copies
have answered. -/
def Decides (b : Broker nmr) (reply : ServerReply) (c : ClientId) : Prop :=
  reply.heartbeat = false ∧ reply.duplicated = false ∧
    ∃ last ∈ (ofClient c (b.db.pending reply.service)).getLast?,
      (∃ v ∈ last.results ++ [reply.result],
        Wins (nmr.toNat / 2) v (last.results ++ [reply.result])) ∨
      last.results.length + 1 = nmr.toNat

/-- Everybody this call answers is connected. -/
def Attended (b : Broker nmr) (moment : Moment) : Prop :=
  match moment.event with
  | .registration _ _ => True
  | .heartbeat _ _ _ => True
  | .request c request _ _ =>
      b.db.servicesDb request.service = none → moment.connected c
  | .response _ reply c => b.Decides reply c → moment.connected c
  | .sweep now => ∀ service ∈ b.availableServices, ∀ record ∈ b.db.pending service,
      timeCmp now record.timeout = 1 → moment.connected record.clientId

/-! ## Who is answered -/

/-- A reply causes a response to its client, if it decides. -/
theorem decides_of_mem_sent {index : ℕ} {reply : ServerReply} {output : Output}
    (h : output ∈ (getResponse everyone b index reply c).sent) :
    (∃ response, output = .router c response) ∧ b.Decides reply c := by
  by_cases hpong : reply.heartbeat = true
  · rw [getResponse_pong hpong] at h
    unfold ServiceDatabase.registerPong at h
    cases hrecord : b.db.servicesDb reply.service with
    | none =>
        rw [ServiceDatabase.lookup_of_none hrecord] at h
        simp at h
    | some record =>
        rw [ServiceDatabase.lookup_of_some hrecord, Outcome.pure_bind'] at h
        split at h <;> simp at h
  rw [Bool.not_eq_true] at hpong
  by_cases hdup : reply.duplicated = true
  · rw [getResponse_duplicated hpong hdup] at h
    simp at h
  rw [Bool.not_eq_true] at hdup
  cases hrecord : b.db.servicesDb reply.service with
  | none =>
      rw [getResponse, if_neg (by simp [hpong]), if_neg (by simp [hdup]),
        ServiceDatabase.pushResult, ServiceDatabase.lookup_of_none hrecord] at h
      simp at h
  | some record =>
      cases hlast : (ofClient c record.requestRecords).getLast? with
      | none =>
          rw [getResponse_unclaimed hpong hdup hrecord (List.getLast?_eq_none_iff.mp hlast)] at h
          simp at h
      | some last =>
          have hmem : last ∈ (ofClient c (b.db.pending reply.service)).getLast? := by
            rw [ServiceDatabase.pending_of_some hrecord]
            exact hlast
          rw [getResponse_counted hpong hdup hrecord hlast] at h
          split at h
          · rw [Outcome.mem_bind_sent, vote_sent] at h
            obtain h | ⟨⟨ret, result⟩, hvote, h⟩ := h
            · simp at h
            dsimp only at h
            split_ifs at h with hret hall
            · obtain ⟨v, -, hwins⟩ := vote_sound hvote hret
              exact ⟨⟨_, by simpa using h⟩, hpong, hdup, last, hmem,
                Or.inl ⟨v, hwins.mem, hwins⟩⟩
            · exact ⟨⟨_, by simpa using h⟩, hpong, hdup, last, hmem, Or.inr hall⟩
            · simp at h
          · simp at h

theorem pending_sublist_of_sweepRecord {now : Timespec} {i : ℕ}
    {state state' : Option Int32 × ServiceDatabase nmr} {pending : RequestRecord}
    (h : (sweepRecord everyone now i state pending).result = .ok state') (service : ServiceType) :
    (state'.2.pending service).Sublist (state.2.pending service) := by
  unfold sweepRecord at h
  split at h
  · obtain ⟨⟨ret, result⟩, -, h⟩ := Outcome.bind_result_ok.mp h
    obtain ⟨-, -, h⟩ := Outcome.bind_result_ok.mp h
    obtain ⟨db, hdelete, h⟩ := Outcome.bind_result_ok.mp h
    rw [← Except.ok.inj h]
    cases hrecord : state.2.servicesDb (UInt32.ofNat i) with
    | none =>
        rw [ServiceDatabase.deleteRequest, ServiceDatabase.lookup_of_none hrecord] at hdelete
        cases hdelete
    | some record =>
        rw [ServiceDatabase.deleteRequest_of_some hrecord] at hdelete
        rw [← Except.ok.inj hdelete]
        exact ServiceDatabase.pending_delete hrecord _
  · rw [← Except.ok.inj h]

theorem pending_sublist_of_sweepService {now : Timespec}
    {state state' : Option Int32 × ServiceDatabase nmr} {entry : ServiceType × ℕ}
    (h : (sweepService everyone now state entry).result = .ok state') (service : ServiceType) :
    (state'.2.pending service).Sublist (state.2.pending service) := by
  obtain ⟨records, -, h⟩ := Outcome.bind_result_ok.mp h
  exact Outcome.foldlM_invariant
    (P := fun t => (t.2.pending service).Sublist (state.2.pending service))
    (fun s t record _ hs ht => (pending_sublist_of_sweepRecord ht service).trans hs)
    (List.Sublist.refl _) h

/-- A sweep answers clients that had an expired record before it, with the vote over the
results of that record. -/
theorem expired_of_mem_sent {now : Timespec} {output : Output}
    (h : output ∈ (checkPendingRequests everyone b now).sent) :
    ∃ service ∈ b.availableServices, ∃ record ∈ b.db.pending service,
      timeCmp now record.timeout = 1 ∧ ∃ before ret result,
        (vote nmr record.results before).result = .ok (ret, result) ∧
        output = .router record.clientId
          ⟨if 0 ≤ ret then .serviceAvailable else .serviceNotReliable, result⟩ := by
  unfold checkPendingRequests at h
  rw [Outcome.mem_bind_sent] at h
  rcases h with h | ⟨_, -, h⟩
  · obtain ⟨before, entry, after, state, hentries, hbefore, h⟩ :=
      Outcome.exists_step_of_mem_foldlM_sent h
    have hentry : entry ∈ b.availableServices.zipIdx := by
      rw [hentries]
      exact List.mem_append_right _ List.mem_cons_self
    have hsub := Outcome.foldlM_invariant
      (P := fun t => (t.2.pending entry.1).Sublist (b.db.pending entry.1))
      (fun s t entry' _ hs ht => (pending_sublist_of_sweepService ht entry.1).trans hs)
      (List.Sublist.refl _) hbefore
    unfold sweepService at h
    cases hrecord : state.2.servicesDb entry.1 with
    | none =>
        rw [ServiceDatabase.getPendingRequests, ServiceDatabase.lookup_of_none hrecord] at h
        simp at h
    | some serviceRecord =>
        rw [ServiceDatabase.getPendingRequests_of_some hrecord, Outcome.pure_bind',
          ← ServiceDatabase.pending_of_some hrecord] at h
        obtain ⟨before', record, after', state', hrecords, -, h⟩ :=
          Outcome.exists_step_of_mem_foldlM_sent h
        have hmem : record ∈ state.2.pending entry.1 := by
          rw [hrecords]
          exact List.mem_append_right _ List.mem_cons_self
        unfold sweepRecord at h
        split_ifs at h with hexpired
        · refine ⟨entry.1, List.fst_mem_of_mem_zipIdx hentry, record, hsub.subset hmem, hexpired,
            ?_⟩
          rw [Outcome.mem_bind_sent, vote_sent] at h
          obtain h | ⟨⟨ret, result⟩, hvote, h⟩ := h
          · simp at h
          dsimp only at h
          rw [sendRouter_everyone, Outcome.mem_bind_sent] at h
          rcases h with h | ⟨_, -, h⟩
          · exact ⟨_, ret, result, hvote, List.mem_singleton.mp h⟩
          · rw [ServiceDatabase.deleteRequest] at h
            cases hdelete : state'.2.servicesDb (UInt32.ofNat entry.2) <;>
              simp [ServiceDatabase.lookup, hdelete] at h
        · simp at h
  · simp at h

/-- **Everybody a handler answers is covered by `Attended`.** -/
theorem connected_of_mem_sent {moment : Moment} (hattended : b.Attended moment) {c : ClientId}
    {response : ResponseModule}
    (h : Output.router c response ∈ (b.handle everyone moment.event).sent) :
    moment.connected c := by
  obtain ⟨connected, event⟩ := moment
  cases event with
  | registration rm now => cases mem_getRegistration_sent h
  | request client request now later =>
      change Output.router c response ∈ (getRequest everyone b client request now later).sent at h
      cases hrecord : b.db.servicesDb request.service with
      | none =>
          rw [getRequest_of_none hrecord, List.mem_singleton, Output.router.injEq] at h
          rw [h.1]
          exact hattended hrecord
      | some record => cases mem_getRequest_sent hrecord h
  | response index reply client =>
      change Output.router c response ∈ (getResponse everyone b index reply client).sent at h
      obtain ⟨⟨response', heq⟩, hdecides⟩ := decides_of_mem_sent h
      rw [(Output.router.inj heq).1]
      exact hattended hdecides
  | heartbeat i now later =>
      obtain ⟨seqId, heq⟩ := mem_heartbeat_sent h
      cases heq
  | sweep now =>
      obtain ⟨service, hservice, record, hrecord, hexpired, -, ret, result, -, heq⟩ :=
        expired_of_mem_sent h
      rw [(Output.router.inj heq).1]
      exact hattended service hservice record hrecord hexpired

theorem handle_of_attended {moment : Moment} (hattended : b.Attended moment) :
    b.handle moment.connected moment.event = b.handle everyone moment.event :=
  handle_of_routable fun _ _ h => connected_of_mem_sent hattended h

/-! ## Runs -/

/-- **Attended runs are the runs in which nobody goes away**: the same messages, the same
records, the same end. -/
theorem run_eq_of_attended {b : Broker nmr} {moments : List Moment}
    (h : Machine.Along survive Attended b moments) :
    b.run moments = b.run (moments.map Moment.staying) := by
  induction moments generalizing b with
  | nil => rfl
  | cons moment moments ih =>
      have hfirst := handle_of_attended h.1
      show b.handle moment.connected moment.event >>= (fun t => t.run moments) =
        b.handle everyone moment.event >>= fun t => t.run (moments.map Moment.staying)
      rw [← hfirst]
      cases hresult : (b.handle moment.connected moment.event).result with
      | error fault => rw [Outcome.bind_of_error hresult, Outcome.bind_of_error hresult]
      | ok t =>
          have hnext : survive b moment = some t := by rw [survive, hresult]; rfl
          rw [Outcome.bind_of_ok hresult, Outcome.bind_of_ok hresult, ih (h.2 t hnext)]

instance (b : Broker nmr) (reply : ServerReply) (c : ClientId) : Decidable (b.Decides reply c) :=
  inferInstanceAs (Decidable (_ ∧ _ ∧ ∃ last ∈ _, _))

instance (b : Broker nmr) (moment : Moment) : Decidable (b.Attended moment) :=
  match moment with
  | ⟨_, .registration _ _⟩ => .isTrue trivial
  | ⟨_, .heartbeat _ _ _⟩ => .isTrue trivial
  | ⟨_, .request _ _ _ _⟩ => inferInstanceAs (Decidable (_ → _))
  | ⟨_, .response _ _ _⟩ => inferInstanceAs (Decidable (_ → _))
  | ⟨_, .sweep _⟩ => inferInstanceAs (Decidable (∀ service ∈ _, ∀ record ∈ _, _ → _))

/-- Two copies register, client `7` makes a request, and both copies answer it. -/
def answeredRun : List Event :=
  [.registration ⟨"pippo", 0⟩ ⟨0, 0⟩, .registration ⟨"pippo", 0⟩ ⟨0, 0⟩,
    .request 7 ⟨0, Vector.replicate paramSize 0⟩ ⟨0, 0⟩ ⟨0, 0⟩,
    .response 0 ⟨false, false, 1, 0, 0⟩ 7, .response 0 ⟨false, false, 1, 0, 1⟩ 7]

theorem run_eq_of_attended_answeredRun :
    (init 5559 5555 : Broker 2).run (answeredRun.map fun event => ⟨(· = 7), event⟩) =
      (init 5559 5555 : Broker 2).run
        ((answeredRun.map fun event => ⟨(· = 7), event⟩).map Moment.staying) :=
  run_eq_of_attended (by decide +kernel)

/-- **A client that leaves before its answer ends the broker.** -/
theorem gone_client_ends_broker :
    ¬ ∀ (nmr : UInt8) (portRouter portReg : UInt16) (moments : List Moment),
      (init portRouter portReg : Broker nmr).run moments =
        (init portRouter portReg : Broker nmr).run (moments.map Moment.staying) := by
  intro h
  have heq := h 2 5559 5555 (answeredRun.map fun event => ⟨fun _ => false, event⟩)
  have hend := congrArg (fun m => m.result.toOption.isSome) heq
  exact absurd hend (by decide +kernel)

end Broker

end ReliableService
