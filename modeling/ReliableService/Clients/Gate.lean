import ReliableService.Voting.Vote

/-!
# A client that is gone

`connected` enters the handlers at one place, the `ROUTER` send.  So a handler with some
clients gone is the handler with everybody connected, cut off at the first response to
a client that is gone (`handle_eq_cutOff`): up to there it does the same, and there the
process ends with `hostUnreachable`.

`handle_ok_everyone` is the form the other modules use: whatever a handler returns, it
returns as if everybody were connected.
-/

namespace ReliableService

/-- A send that does not throw. -/
def routable (connected : ClientId → Bool) : Output → Bool
  | .router clientId _ => connected clientId
  | _ => true

/-- The broker's computations with some clients gone. -/
def cutOff (connected : ClientId → Bool) {α : Type} (m : Effect α) : Effect α :=
  m.gate (routable connected) .hostUnreachable

section Rules

variable (connected : ClientId → Bool) {α β : Type}

theorem cutOff_of_sent_nil {m : Effect α} (h : m.sent = []) : cutOff connected m = m :=
  Outcome.gate_of_sent_nil h

@[simp] theorem cutOff_pure (a : α) : cutOff connected (pure a : Effect α) = pure a := rfl

theorem cutOff_bind (m : Effect α) (f : α → Effect β) :
    cutOff connected (m >>= f) = cutOff connected m >>= fun a => cutOff connected (f a) :=
  Outcome.gate_bind m f

theorem cutOff_foldlM {ι : Type} (f : α → ι → Effect α) (xs : List ι) (a : α) :
    cutOff connected (xs.foldlM f a) = xs.foldlM (fun a x => cutOff connected (f a x)) a :=
  Outcome.gate_foldlM f xs a

end Rules

/-! ## The database sends nothing -/

section Database

variable {nmr : UInt8} (connected : ClientId → Bool) (db : ServiceDatabase nmr)
  (service : ServiceType) (c : ClientId)

@[simp] theorem cutOff_lookup : cutOff connected (db.lookup service) = db.lookup service := by
  unfold ServiceDatabase.lookup
  split <;> rfl

@[simp] theorem cutOff_getRequestId :
    cutOff connected (db.getRequestId service) = db.getRequestId service := by
  rw [ServiceDatabase.getRequestId, cutOff_bind, cutOff_lookup]
  rfl

@[simp] theorem cutOff_getReliableCopies :
    cutOff connected (db.getReliableCopies service) = db.getReliableCopies service := by
  rw [ServiceDatabase.getReliableCopies, cutOff_bind, cutOff_lookup]
  rfl

@[simp] theorem cutOff_getPingId :
    cutOff connected (db.getPingId service) = db.getPingId service := by
  rw [ServiceDatabase.getPingId, cutOff_bind, cutOff_lookup]
  rfl

@[simp] theorem cutOff_getPendingRequests :
    cutOff connected (db.getPendingRequests service) = db.getPendingRequests service := by
  rw [ServiceDatabase.getPendingRequests, cutOff_bind, cutOff_lookup]
  rfl

@[simp] theorem cutOff_pushRequest (now : Timespec) :
    cutOff connected (db.pushRequest c service now) = db.pushRequest c service now := by
  rw [ServiceDatabase.pushRequest, cutOff_bind, cutOff_lookup]
  rfl

@[simp] theorem cutOff_deleteRequest :
    cutOff connected (db.deleteRequest service c) = db.deleteRequest service c := by
  rw [ServiceDatabase.deleteRequest, cutOff_bind, cutOff_lookup]
  rfl

@[simp] theorem cutOff_getResult :
    cutOff connected (db.getResult service c) = db.getResult service c := by
  rw [ServiceDatabase.getResult, cutOff_bind, cutOff_lookup]
  refine congrArg _ (funext ?_)
  intro record
  split <;> rfl

@[simp] theorem cutOff_pushResult (reply : ServerReply) :
    cutOff connected (db.pushResult reply c) = db.pushResult reply c := by
  rw [ServiceDatabase.pushResult, cutOff_bind, cutOff_lookup]
  rfl

@[simp] theorem cutOff_registerPong (idCopy : UInt8) :
    cutOff connected (db.registerPong idCopy service) = db.registerPong idCopy service := by
  rw [ServiceDatabase.registerPong, cutOff_bind, cutOff_lookup]
  refine congrArg _ (funext ?_)
  intro record
  split <;> rfl

@[simp] theorem cutOff_checkPong :
    cutOff connected (db.checkPong service) = db.checkPong service := by
  unfold ServiceDatabase.checkPong
  split <;> rfl

@[simp] theorem cutOff_vote (values : List Int32) (result : Option Int32) :
    cutOff connected (vote nmr values result) = vote nmr values result :=
  cutOff_of_sent_nil connected (vote_sent nmr values result)

end Database

/-! ## The handlers -/

namespace Broker

variable {nmr : UInt8} (connected : ClientId → Bool) (b : Broker nmr)

@[simp] theorem cutOff_sendRouter (c : ClientId) (response : ResponseModule) :
    cutOff connected (sendRouter everyone c response) = sendRouter connected c response := by
  simp only [sendRouter, everyone, if_true]
  exact Outcome.gate_tell _

@[simp] theorem cutOff_sendDealer (index : ℕ) (envelope : ClientId) (sm : ServiceModule) :
    cutOff connected (b.sendDealer index envelope sm) = b.sendDealer index envelope sm := by
  unfold sendDealer
  split <;> rfl

@[simp] theorem cutOff_sendCopies (index : ℕ) (envelope : ClientId) (sm : ServiceModule) (n : ℕ) :
    cutOff connected (b.sendCopies index envelope sm n) = b.sendCopies index envelope sm n := by
  induction n with
  | zero => rfl
  | succ n ih => rw [sendCopies, cutOff_bind, cutOff_sendDealer, ih]

@[simp] theorem cutOff_addDealer (port : UInt16) :
    cutOff connected (b.addDealer port) = b.addDealer port := by
  unfold addDealer
  split <;> rfl

@[simp] theorem cutOff_updateTimeout (service : ServiceType) (now : Timespec) :
    cutOff connected (b.updateTimeout service now) = b.updateTimeout service now := by
  unfold updateTimeout
  simp only
  split <;> rfl

@[simp] theorem cutOff_pingServer (i : UInt8) (service : ServiceType) :
    cutOff connected (b.pingServer i service) = b.pingServer i service := by
  rw [pingServer, cutOff_bind, cutOff_getPingId]
  refine congrArg _ (funext ?_)
  intro seqId
  split
  · rfl
  · rw [cutOff_bind, cutOff_getReliableCopies]
    simp only [cutOff_sendCopies]

@[simp] theorem cutOff_makeAvailable (service : ServiceType) (port : UInt16) (now : Timespec) :
    cutOff connected (b.makeAvailable service port now) = b.makeAvailable service port now := by
  rw [makeAvailable, cutOff_bind, cutOff_addDealer]
  rfl

theorem cutOff_getRegistration (rm : RegistrationModule) (now : Timespec) :
    cutOff connected (b.getRegistration rm now) = b.getRegistration rm now := by
  dsimp only [getRegistration]
  rw [cutOff_bind]
  split_ifs
  · rw [cutOff_makeAvailable]
    rfl
  · rfl

theorem cutOff_getRequest (c : ClientId) (request : RequestModule) (now later : Timespec) :
    cutOff connected (getRequest everyone b c request now later) =
      getRequest connected b c request now later := by
  unfold getRequest
  split
  · simp only [cutOff_bind, cutOff_sendRouter, cutOff_pure]
  · simp only [cutOff_bind, cutOff_getRequestId, cutOff_getReliableCopies, cutOff_sendCopies,
      cutOff_pushRequest, cutOff_updateTimeout]

theorem cutOff_getResponse (dealerIndex : ℕ) (reply : ServerReply) (c : ClientId) :
    cutOff connected (getResponse everyone b dealerIndex reply c) =
      getResponse connected b dealerIndex reply c := by
  unfold getResponse
  split
  · simp only [cutOff_bind, cutOff_registerPong, cutOff_pure]
  split
  · rfl
  rw [cutOff_bind, cutOff_pushResult]
  refine congrArg _ (funext ?_)
  rintro ⟨numCopies, db⟩
  dsimp only
  by_cases hmajority : (nmr.toNat / 2 : ℕ) < numCopies
  · rw [if_pos hmajority, if_pos hmajority, cutOff_bind, cutOff_getResult]
    refine congrArg _ (funext ?_)
    intro values
    rw [cutOff_bind, cutOff_vote]
    refine congrArg _ (funext ?_)
    rintro ⟨ret, result⟩
    dsimp only
    split_ifs
    all_goals simp only [cutOff_bind, cutOff_sendRouter, cutOff_deleteRequest, cutOff_pure]
  · rw [if_neg hmajority, if_neg hmajority]
    rfl

theorem cutOff_heartbeat (i : ℕ) (now later : Timespec) :
    cutOff connected (b.heartbeat i now later) = b.heartbeat i now later := by
  unfold heartbeat
  split
  · rfl
  split_ifs
  · split
    · rfl
    · simp only [cutOff_bind, cutOff_checkPong, cutOff_pingServer, cutOff_updateTimeout]
  · rfl

theorem cutOff_sweepRecord (now : Timespec) (i : ℕ) (state : Option Int32 × ServiceDatabase nmr)
    (pending : RequestRecord) :
    cutOff connected (sweepRecord everyone now i state pending) =
      sweepRecord connected now i state pending := by
  unfold sweepRecord
  split_ifs
  · simp only [cutOff_bind, cutOff_vote, cutOff_sendRouter, cutOff_deleteRequest, cutOff_pure]
  · rfl

theorem cutOff_sweepService (now : Timespec) (state : Option Int32 × ServiceDatabase nmr)
    (entry : ServiceType × ℕ) :
    cutOff connected (sweepService everyone now state entry) =
      sweepService connected now state entry := by
  simp only [sweepService, cutOff_bind, cutOff_getPendingRequests, cutOff_foldlM,
    cutOff_sweepRecord]

theorem cutOff_checkPendingRequests (now : Timespec) :
    cutOff connected (checkPendingRequests everyone b now) =
      checkPendingRequests connected b now := by
  simp only [checkPendingRequests, cutOff_bind, cutOff_foldlM, cutOff_sweepService, cutOff_pure]

/-- **With some clients gone, a handler is cut off at the first of them it answers.** -/
theorem handle_eq_cutOff (event : Event) :
    handle connected b event = cutOff connected (handle everyone b event) := by
  cases event with
  | registration rm now => exact (cutOff_getRegistration connected b rm now).symm
  | request c request now later => exact (cutOff_getRequest connected b c request now later).symm
  | response dealerIndex reply c =>
      exact (cutOff_getResponse connected b dealerIndex reply c).symm
  | heartbeat i now later => exact (cutOff_heartbeat connected b i now later).symm
  | sweep now => exact (cutOff_checkPendingRequests connected b now).symm

variable {connected b}

/-- A handler that only answers connected clients runs as if everybody were connected. -/
theorem handle_of_routable {event : Event}
    (h : ∀ c response, Output.router c response ∈ (handle everyone b event).sent → connected c) :
    handle connected b event = handle everyone b event := by
  rw [handle_eq_cutOff]
  apply Outcome.gate_of_all
  intro output houtput
  cases output with
  | router c response => exact h c response houtput
  | dealer index envelope sm => rfl
  | reg port => rfl

/-- What returns has answered connected clients only. -/
theorem handle_ok_everyone {event : Event} {b' : Broker nmr}
    (h : (handle connected b event).result = .ok b') :
    handle connected b event = handle everyone b event ∧
      ∀ c response, Output.router c response ∈ (handle everyone b event).sent → connected c := by
  have hall : ∀ c response, Output.router c response ∈ (handle everyone b event).sent →
      connected c := by
    intro c response hmem
    rw [handle_eq_cutOff] at h
    exact Outcome.all_of_gate_result_ok h _ hmem
  exact ⟨handle_of_routable hall, hall⟩

/-- An answer to a client that is gone ends the process. -/
theorem handle_result_of_gone {event : Event} {c : ClientId} {response : ResponseModule}
    (hgone : connected c = false)
    (hsent : Output.router c response ∈ (handle everyone b event).sent) :
    (handle connected b event).result = .error .hostUnreachable := by
  rw [handle_eq_cutOff]
  exact Outcome.gate_result_of_refused hsent hgone

end Broker

end ReliableService
