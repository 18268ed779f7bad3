import ReliableService.Copies.Slots
import ReliableService.Registration.Tables

/-!
# What a broker does to the copies of one service

A broker handles events of many kinds for many services.  Seen from the copies of one
service, each call is a registration, a pong, a `check_pong`, or nothing: `copyEvents`.
`copies_of_handle` is the simulation: whatever a call does to the record of a service, on
the side of the copies it is what these operations do to the record alone.  Along a run,
every record is a fresh one after some sequence of operations (`traced_run`), so the bounds
on the counters and on the detection of silent copies, which are about such sequences, are
statements about the broker.
-/

namespace ReliableService.Broker

open ServiceRecord

variable {nmr : UInt8} {b b' : Broker nmr} {service : ServiceType} {record : ServiceRecord nmr}

instance Due.decidable (b : Broker nmr) (i : ℕ) (now : Timespec) : Decidable (b.Due i now) :=
  match h : b.timeout[i]? with
  | none => .isFalse (by simp [Due, h])
  | some deadline => decidable_of_iff (timeCmp now deadline = 1) (by simp [Due, h])

/-- What a call means to the copies of a service. -/
def copyEvents (b : Broker nmr) (service : ServiceType) : Event → List (CopyEvent nmr)
  | .registration rm _ => if rm.service = service then [.registration] else []
  | .request _ _ _ _ => []
  | .response _ reply _ =>
      if reply.heartbeat = true ∧ reply.service = service then
        if h : reply.id.toNat < nmr.toNat then [.pong ⟨reply.id.toNat, h⟩] else []
      else []
  | .heartbeat i now _ =>
      if b.Due i now ∧ b.availableServices[i]? = some service then [.check] else []
  | .sweep _ => []

/-- The record after a call is, as far as its copies go, the one after these operations. -/
def CopiesAfter (b' : Broker nmr) (service : ServiceType) (record : ServiceRecord nmr)
    (events : List (CopyEvent nmr)) : Prop :=
  ∃ record', b'.db.servicesDb service = some record' ∧
    record'.clearRequests = (record.afterEvents events).clearRequests

theorem copies_of_registration {rm : RegistrationModule} {now : Timespec}
    (h : (b.handle everyone (.registration rm now)).result = .ok b')
    (hrecord : b.db.servicesDb service = some record) :
    b'.CopiesAfter service record (b.copyEvents service (.registration rm now)) := by
  have hdb : b'.db = (b.registered rm).db := by
    rw [handle_registration_ok h]
    split <;> rfl
  rw [CopiesAfter, hdb, copyEvents]
  by_cases hself : rm.service = service
  · subst hself
    rw [if_pos rfl]
    show ∃ record', _ ∧ _ = (record.register.getD record).clearRequests
    cases hregister : record.register with
    | none =>
        rw [(registered_db_of_refused hrecord hregister).1]
        exact ⟨record, hrecord, rfl⟩
    | some record' =>
        rw [(registered_db_of_accepted hrecord hregister).1]
        exact ⟨record', ServiceDatabase.insert_self .., rfl⟩
  · rw [if_neg hself, registered_servicesDb_ne (Ne.symm hself)]
    exact ⟨record, hrecord, rfl⟩

theorem copies_of_response {index : ℕ} {reply : ServerReply} {c : ClientId}
    (h : (b.handle everyone (.response index reply c)).result = .ok b')
    (hrecord : b.db.servicesDb service = some record) :
    b'.CopiesAfter service record (b.copyEvents service (.response index reply c)) := by
  change (getResponse everyone b index reply c).result = .ok b' at h
  rw [copyEvents]
  by_cases hpong : reply.heartbeat = true
  · obtain ⟨found, hfound, hid, rfl, -⟩ := getResponse_pong_ok hpong h
    by_cases hself : reply.service = service
    · subst hself
      rw [hfound, Option.some.injEq] at hrecord
      subst hrecord
      rw [if_pos ⟨hpong, rfl⟩, dif_pos hid]
      exact ⟨_, ServiceDatabase.insert_self .., rfl⟩
    · rw [if_neg fun hboth => hself hboth.2]
      exact ⟨record, (ServiceDatabase.insert_of_ne _ (Ne.symm hself) _).trans hrecord, rfl⟩
  · rw [if_neg fun hboth => hpong hboth.1]
    rw [Bool.not_eq_true] at hpong
    by_cases hdup : reply.duplicated = true
    · rw [getResponse_duplicated hpong hdup] at h
      rw [← Except.ok.inj h]
      exact ⟨record, hrecord, rfl⟩
    rw [Bool.not_eq_true] at hdup
    obtain ⟨db, hsame, rfl⟩ := sameCopies_getResponse hpong hdup h
    exact hsame.exists_of_some hrecord

theorem copies_of_heartbeat {i : ℕ} {now later : Timespec}
    (h : (b.handle everyone (.heartbeat i now later)).result = .ok b')
    (hrecord : b.db.servicesDb service = some record) :
    b'.CopiesAfter service record (b.copyEvents service (.heartbeat i now later)) := by
  change (b.heartbeat i now later).result = .ok b' at h
  rw [copyEvents]
  by_cases hdue : b.Due i now
  · obtain ⟨checked, found, hchecked, hfound, rfl, -⟩ := heartbeat_ok hdue h
    by_cases hself : checked = service
    · subst hself
      rw [hfound, Option.some.injEq] at hrecord
      subst hrecord
      rw [if_pos ⟨hdue, hchecked⟩]
      exact ⟨_, ServiceDatabase.insert_self .., rfl⟩
    · rw [if_neg fun hboth => hself (Option.some.inj (hchecked.symm.trans hboth.2))]
      exact ⟨record, (ServiceDatabase.insert_of_ne _ (Ne.symm hself) _).trans hrecord, rfl⟩
  · rw [heartbeat_of_not_due hdue] at h
    rw [if_neg fun hboth => hdue hboth.1, ← Except.ok.inj h]
    exact ⟨record, hrecord, rfl⟩

/-- **A call is what it means to the copies.** -/
theorem copies_of_handle {event : Event} (h : (b.handle everyone event).result = .ok b')
    (hrecord : b.db.servicesDb service = some record) :
    b'.CopiesAfter service record (b.copyEvents service event) := by
  cases event with
  | registration rm now => exact copies_of_registration h hrecord
  | request c request now later =>
      change (getRequest everyone b c request now later).result = .ok b' at h
      cases hrequest : b.db.servicesDb request.service with
      | none =>
          rw [getRequest_of_none hrequest] at h
          rw [← Except.ok.inj h]
          exact ⟨record, hrecord, rfl⟩
      | some found =>
          obtain ⟨-, -, -, rfl⟩ := getRequest_ok hrequest h
          exact (sameCopies_filed hrequest c now).exists_of_some hrecord
  | response index reply c => exact copies_of_response h hrecord
  | heartbeat i now later => exact copies_of_heartbeat h hrecord
  | sweep now =>
      change (checkPendingRequests everyone b now).result = .ok b' at h
      obtain ⟨db, hsame, rfl⟩ := checkPendingRequests_ok h
      exact hsame.exists_of_some hrecord

/-- A record that was not there has just been made. -/
theorem init_of_handle {event : Event} {record' : ServiceRecord nmr}
    (h : (b.handle everyone event).result = .ok b') (hnone : b.db.servicesDb service = none)
    (hrecord' : b'.db.servicesDb service = some record') :
    ∃ owner port index, record' = ServiceRecord.init owner port index := by
  rcases handle_cases h with ⟨rm, now, rfl⟩ | ⟨hsame, -⟩
  · rw [handle_registration_db h] at hrecord'
    by_cases hself : service = rm.service
    · subst hself
      rw [(registered_db_of_none hnone).1] at hrecord'
      have heq := (ServiceDatabase.insert_self b.db rm.service _).symm.trans hrecord'
      exact ⟨_, _, _, (Option.some.inj heq).symm⟩
    · rw [registered_servicesDb_ne hself, hnone] at hrecord'
      cases hrecord'
  · rw [(hsame.none_iff service).mpr hnone] at hrecord'
    cases hrecord'

/-! ## Runs -/

/-- The request side has no part in what happens to the copies. -/
theorem clearRequests_afterEvents (record : ServiceRecord nmr) (events : List (CopyEvent nmr)) :
    (record.afterEvents events).clearRequests = record.clearRequests.afterEvents events := by
  induction events generalizing record with
  | nil => rfl
  | cons event events ih =>
      rw [afterEvents_cons, afterEvents_cons, ih]
      congr 1
      cases event with
      | registration =>
          by_cases hroom : record.numCopiesRegistered < nmr
          · simp [afterEvent, register, clearRequests, hroom]
          · simp [afterEvent, register, clearRequests, hroom]
      | pong idCopy => rfl
      | check => rfl

/-- Every record is, as far as its copies go, a fresh one after registrations, pongs and
checks. -/
def Traced (b : Broker nmr) : Prop :=
  ∀ service record, b.db.servicesDb service = some record →
    ∃ owner port index events, record.clearRequests =
      ((ServiceRecord.init owner port index).afterEvents events).clearRequests

theorem Traced.handle (h : b.Traced) {connected : ClientId → Bool} {event : Event}
    (hb' : (b.handle connected event).result = .ok b') : b'.Traced := by
  intro service record' hrecord'
  rw [(handle_ok_everyone hb').1] at hb'
  cases hrecord : b.db.servicesDb service with
  | none =>
      obtain ⟨owner, port, index, rfl⟩ := init_of_handle hb' hrecord hrecord'
      exact ⟨owner, port, index, [], rfl⟩
  | some record =>
      obtain ⟨owner, port, index, events, heq⟩ := h service record hrecord
      obtain ⟨after, hafter, hsame⟩ := copies_of_handle hb' hrecord
      obtain rfl : after = record' := Option.some.inj (hafter.symm.trans hrecord')
      refine ⟨owner, port, index, events ++ b.copyEvents service event, ?_⟩
      calc after.clearRequests
          = record.clearRequests.afterEvents (b.copyEvents service event) := by
            rw [hsame, clearRequests_afterEvents]
        _ = ((ServiceRecord.init owner port index).afterEvents
              (events ++ b.copyEvents service event)).clearRequests := by
            rw [heq, afterEvents_append, clearRequests_afterEvents _ (b.copyEvents service event)]

/-- **In every reachable state** the copies of a service stand where some sequence of
registrations, pongs and checks has brought them. -/
theorem traced_run {portRouter portReg : UInt16} {moments : List Moment}
    (h : ((Broker.init portRouter portReg : Broker nmr).run moments).result = .ok b) :
    b.Traced := by
  refine Outcome.foldlM_invariant (P := Traced) (fun _ _ _ _ hs ht => hs.handle ht) ?_ h
  intro service record hrecord
  cases hrecord

/-- Both counters agree in every reachable state, wrapped or not. -/
theorem counters_eq_of_run {portRouter portReg : UInt16} {moments : List Moment}
    (h : ((Broker.init portRouter portReg : Broker nmr).run moments).result = .ok b)
    (hrecord : b.db.servicesDb service = some record) :
    record.numCopiesRegistered = record.numCopiesReliable := by
  obtain ⟨owner, port, index, events, heq⟩ := traced_run h service record hrecord
  calc record.numCopiesRegistered
      = ((ServiceRecord.init owner port index).afterEvents events).numCopiesRegistered :=
        congrArg (·.numCopiesRegistered) heq
    _ = ((ServiceRecord.init owner port index).afterEvents events).numCopiesReliable :=
        counters_afterEvents rfl events
    _ = record.numCopiesReliable := (congrArg (·.numCopiesReliable) heq).symm

end ReliableService.Broker
