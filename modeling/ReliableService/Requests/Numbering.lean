import ReliableService.Registration.Tables

/-!
# The numbers of the forwarded requests

`get_request` takes the number of a request from the record of its service and counts it up;
nothing else touches the counter, and it starts at `0` when the broker does.  So the requests
for a service go out as number `0`, `1`, `2`, … of this broker, modulo `2 ^ 32`, and in this
order (`forwarded_numbered`).
-/

namespace ReliableService

open ServiceRecord

variable {nmr : UInt8}

/-- A request for this service. -/
def Event.asks (service : ServiceType) : Event → Bool
  | .request _ asked _ _ => asked.service = service
  | _ => false

/-- A message for a copy. -/
def Output.toCopy? : Output → Option ServiceModule
  | .dealer _ _ sm => some sm
  | _ => none

/-! ## The counter -/

/-- `seq_id_request`, which a record starts at `0`. -/
def ServiceDatabase.counter (db : ServiceDatabase nmr) (service : ServiceType) : UInt32 :=
  (db.servicesDb service).elim 0 (·.seqIdRequest)

/-- Two databases with the same counters. -/
def SameCounters (db db' : ServiceDatabase nmr) : Prop :=
  ∀ service, db'.counter service = db.counter service

theorem sameCounters_insert {db : ServiceDatabase nmr} {service : ServiceType}
    {record : ServiceRecord nmr} (h : record.seqIdRequest = db.counter service) :
    SameCounters db (db.insert service record) := by
  intro other
  by_cases hother : other = service
  · rw [hother, ServiceDatabase.counter, ServiceDatabase.insert_self, Option.elim_some, h]
  · rw [ServiceDatabase.counter, ServiceDatabase.insert_of_ne db hother, ServiceDatabase.counter]

theorem counter_of_some {db : ServiceDatabase nmr} {service : ServiceType}
    {record : ServiceRecord nmr} (h : db.servicesDb service = some record) :
    db.counter service = record.seqIdRequest := by
  rw [ServiceDatabase.counter, h]
  rfl

namespace Broker

variable {b b' : Broker nmr} {service : ServiceType} {n : ℕ}

theorem sameCounters_registered (b : Broker nmr) (rm : RegistrationModule) :
    SameCounters b.db (b.registered rm).db := by
  cases hrecord : b.db.servicesDb rm.service with
  | none =>
      rw [(registered_db_of_none hrecord).1]
      apply sameCounters_insert
      rw [ServiceDatabase.counter, hrecord]
      rfl
  | some record =>
      cases hregister : record.register with
      | none =>
          rw [(registered_db_of_refused hrecord hregister).1]
          exact fun _ => rfl
      | some record' =>
          rw [(registered_db_of_accepted hrecord hregister).1]
          apply sameCounters_insert
          rw [counter_of_some hrecord]
          unfold register at hregister
          split at hregister
          · rw [← Option.some.inj hregister]
          · cases hregister

theorem sameCounters_getResponse (index : ℕ) {reply : ServerReply} {c : ClientId}
    (h : (getResponse everyone b index reply c).result = .ok b') : SameCounters b.db b'.db := by
  rcases getResponse_writes h with rfl | ⟨record, newPong, records, hrecord, rfl⟩
  · exact fun _ => rfl
  · exact sameCounters_insert (counter_of_some hrecord).symm

theorem sameCounters_sweepRecord {now : Timespec} {i : ℕ}
    {state state' : Option Int32 × ServiceDatabase nmr} {pending : RequestRecord}
    (h : (sweepRecord everyone now i state pending).result = .ok state') :
    SameCounters state.2 state'.2 := by
  unfold sweepRecord at h
  split at h
  · obtain ⟨⟨ret, result⟩, -, h⟩ := Outcome.bind_result_ok.mp h
    obtain ⟨-, -, h⟩ := Outcome.bind_result_ok.mp h
    obtain ⟨db, hdelete, h⟩ := Outcome.bind_result_ok.mp h
    rw [← Except.ok.inj h]
    cases hrecord : state.2.servicesDb (UInt32.ofNat i) with
    | none =>
        rw [ServiceDatabase.deleteRequest, ServiceDatabase.lookup_of_none hrecord] at hdelete
        cases hdelete
    | some record =>
        rw [ServiceDatabase.deleteRequest_of_some hrecord] at hdelete
        rw [← Except.ok.inj hdelete]
        exact sameCounters_insert (counter_of_some hrecord).symm
  · rw [← Except.ok.inj h]
    exact fun _ => rfl

theorem sameCounters_sweep {now : Timespec}
    (h : (checkPendingRequests everyone b now).result = .ok b') : SameCounters b.db b'.db := by
  obtain ⟨t, hsweep, h⟩ := Outcome.bind_result_ok.mp h
  rw [← Except.ok.inj h]
  refine Outcome.foldlM_invariant (P := fun t => SameCounters b.db t.2) ?_ (fun _ => rfl) hsweep
  intro t t' entry _ ht ht'
  obtain ⟨records, -, hloop⟩ := Outcome.bind_result_ok.mp ht'
  exact Outcome.foldlM_invariant (P := fun t => SameCounters b.db t.2)
    (fun u u' record _ hu hu' service => (sameCounters_sweepRecord hu' service).trans (hu service))
    ht hloop

/-- The event takes a number of this service. -/
def Takes (b : Broker nmr) (service : ServiceType) (event : Event) : Prop :=
  event.asks service = true ∧ (b.db.servicesDb service).isSome = true

instance (b : Broker nmr) (service : ServiceType) (event : Event) :
    Decidable (b.Takes service event) :=
  inferInstanceAs (Decidable (_ ∧ _))

theorem not_takes {event : Event} (h : event.asks service = false) : ¬ b.Takes service event := by
  simp [Takes, h]

theorem asks_request {c : ClientId} {request : RequestModule} {now later : Timespec} :
    (Event.request c request now later).asks service = true ↔ request.service = service := by
  simp [Event.asks]

/-- **The counter of a service** goes up with each request that takes a number, and not
otherwise. -/
theorem counter_handle {connected : ClientId → Bool} {event : Event}
    (h : (b.handle connected event).result = .ok b') (service : ServiceType) :
    b'.db.counter service =
      if b.Takes service event then b.db.counter service + 1 else b.db.counter service := by
  rw [(handle_ok_everyone h).1] at h
  cases event with
  | registration rm now =>
      rw [if_neg (not_takes rfl), handle_registration_ok h]
      split
      · exact sameCounters_registered b rm service
      · exact sameCounters_registered b rm service
  | request c request now later =>
      change (getRequest everyone b c request now later).result = .ok b' at h
      cases hrecord : b.db.servicesDb request.service with
      | none =>
          rw [getRequest_of_none hrecord] at h
          rw [← Except.ok.inj h, if_neg]
          rintro ⟨hasks, hsome⟩
          rw [← asks_request.mp hasks, hrecord] at hsome
          exact Bool.noConfusion hsome
      | some record =>
          obtain ⟨-, -, -, rfl⟩ := getRequest_ok hrecord h
          show (filed b.db record c request.service now).counter service = _
          by_cases hservice : request.service = service
          · subst hservice
            rw [if_pos ⟨asks_request.mpr rfl, by rw [hrecord]; rfl⟩, counter_of_some hrecord, filed,
              ServiceDatabase.counter, ServiceDatabase.insert_self]
            rfl
          · rw [if_neg fun htakes => hservice (asks_request.mp htakes.1), filed,
              ServiceDatabase.counter, ServiceDatabase.insert_of_ne _ (Ne.symm hservice),
              ServiceDatabase.insert_of_ne _ (Ne.symm hservice), ServiceDatabase.counter]
  | response index reply c =>
      rw [if_neg (not_takes rfl)]
      exact sameCounters_getResponse index h service
  | heartbeat i now later =>
      rw [if_neg (not_takes rfl)]
      change (b.heartbeat i now later).result = .ok b' at h
      by_cases hdue : b.Due i now
      · obtain ⟨counted, record, -, hrecord, rfl, -⟩ := heartbeat_ok hdue h
        have hsame : record.checkPong.seqIdRequest = b.db.counter counted :=
          (counter_of_some hrecord).symm
        exact sameCounters_insert hsame service
      · rw [heartbeat_of_not_due hdue] at h
        rw [← Except.ok.inj h]
  | sweep now =>
      rw [if_neg (not_takes rfl)]
      exact sameCounters_sweep h service

/-! ## Runs -/

/-- The requests for a service that a run of the broker hands to its sockets, each with the
number of requests that took a number of that service before it. -/
def forwarded (service : ServiceType) (n : ℕ) (b : Broker nmr) :
    List Moment → List (ℕ × ServiceModule)
  | [] => []
  | moment :: moments =>
      (if moment.event.asks service then
          ((b.handle moment.connected moment.event).sent.filterMap Output.toCopy?).map fun sm =>
            (n, sm)
        else []) ++
      match (b.handle moment.connected moment.event).result with
      | .error _ => []
      | .ok b' => b'.forwarded service (if b.Takes service moment.event then n + 1 else n) moments

/-- What one request hands to the sockets carries the number in the record. -/
theorem mem_toCopy_of_asks {moment : Moment} (hasks : moment.event.asks service = true)
    {sm : ServiceModule}
    (hmem : sm ∈ (b.handle moment.connected moment.event).sent.filterMap Output.toCopy?) :
    sm.heartbeat = false ∧ sm.seqId = b.db.counter service := by
  obtain ⟨connected, event⟩ := moment
  cases event with
  | request c request now later =>
      obtain ⟨output, houtput, hsm⟩ := List.mem_filterMap.mp hmem
      have hservice : request.service = service := asks_request.mp hasks
      rw [handle_eq_cutOff] at houtput
      have hsent : output ∈ (getRequest everyone b c request now later).sent :=
        (List.takeWhile_sublist _).subset houtput
      cases hrecord : b.db.servicesDb request.service with
      | none =>
          rw [getRequest_of_none hrecord, List.mem_singleton] at hsent
          rw [hsent] at hsm
          cases hsm
      | some record =>
          rw [mem_getRequest_sent hrecord hsent] at hsm
          rw [← Option.some.inj hsm]
          refine ⟨rfl, ?_⟩
          rw [← hservice, counter_of_some hrecord]
          rfl
  | registration rm now => exact absurd hasks (by simp [Event.asks])
  | response index reply c => exact absurd hasks (by simp [Event.asks])
  | heartbeat i now later => exact absurd hasks (by simp [Event.asks])
  | sweep now => exact absurd hasks (by simp [Event.asks])

/-- What one call hands to the sockets, if it is for a request of the service. -/
def handedOver (service : ServiceType) (n : ℕ) (b : Broker nmr) (moment : Moment) :
    List (ℕ × ServiceModule) :=
  if moment.event.asks service then
    ((b.handle moment.connected moment.event).sent.filterMap Output.toCopy?).map fun sm => (n, sm)
  else []

theorem handedOver_numbered {moment : Moment} (h : b.db.counter service = UInt32.ofNat n)
    {entry : ℕ × ServiceModule} (hmem : entry ∈ b.handedOver service n moment) :
    entry.1 = n ∧ entry.2.heartbeat = false ∧ entry.2.seqId = UInt32.ofNat entry.1 := by
  unfold handedOver at hmem
  split at hmem
  · rename_i hasks
    obtain ⟨sm, hsm, rfl⟩ := List.mem_map.mp hmem
    obtain ⟨hping, hseq⟩ := mem_toCopy_of_asks hasks hsm
    exact ⟨rfl, hping, hseq.trans h⟩
  · exact absurd hmem List.not_mem_nil

/-- Messages with the number `n`, and messages with later ones after them. -/
theorem pairwise_append_of_le {m : ℕ} {entries later : List (ℕ × ServiceModule)}
    (hentries : ∀ entry ∈ entries, entry.1 = n) (hle : n ≤ m)
    (hlater : ∀ entry ∈ later, m ≤ entry.1) (hsorted : (later.map Prod.fst).Pairwise (· ≤ ·)) :
    ((entries ++ later).map Prod.fst).Pairwise (· ≤ ·) := by
  rw [List.map_append, List.pairwise_append]
  refine ⟨List.pairwise_of_forall_mem_list ?_, hsorted, ?_⟩
  · intro first hfirst second hsecond
    obtain ⟨entry, hentry, rfl⟩ := List.mem_map.mp hfirst
    obtain ⟨entry', hentry', rfl⟩ := List.mem_map.mp hsecond
    rw [hentries entry hentry, hentries entry' hentry']
  · intro first hfirst second hsecond
    obtain ⟨entry, hentry, rfl⟩ := List.mem_map.mp hfirst
    obtain ⟨entry', hentry', rfl⟩ := List.mem_map.mp hsecond
    rw [hentries entry hentry]
    exact hle.trans (hlater entry' hentry')

/-- **The numbers of the forwarded requests.** -/
theorem forwarded_numbered (moments : List Moment)
    (h : b.db.counter service = UInt32.ofNat n) :
    (∀ entry ∈ b.forwarded service n moments,
        n ≤ entry.1 ∧ entry.2.heartbeat = false ∧ entry.2.seqId = UInt32.ofNat entry.1) ∧
      ((b.forwarded service n moments).map Prod.fst).Pairwise (· ≤ ·) := by
  induction moments generalizing b n with
  | nil => exact ⟨fun entry hmem => absurd hmem List.not_mem_nil, List.Pairwise.nil⟩
  | cons moment moments ih =>
      have hhere : ∀ entry ∈ b.handedOver service n moment, entry.1 = n ∧
          entry.2.heartbeat = false ∧ entry.2.seqId = UInt32.ofNat entry.1 :=
        fun entry hmem => handedOver_numbered h hmem
      rw [forwarded, ← handedOver]
      cases hresult : (b.handle moment.connected moment.event).result with
      | error fault =>
          refine ⟨fun entry hmem => ?_, pairwise_append_of_le (fun entry hmem =>
            (hhere entry hmem).1) le_rfl (by simp) List.Pairwise.nil⟩
          rw [List.append_nil] at hmem
          obtain ⟨hn, hrest⟩ := hhere entry hmem
          exact ⟨hn.ge, hrest⟩
      | ok b' =>
          have hnext : b'.db.counter service =
              UInt32.ofNat (if b.Takes service moment.event then n + 1 else n) := by
            rw [counter_handle hresult service, h]
            split
            · exact (UInt32.ofNat_add n 1).symm
            · rfl
          have hle : n ≤ if b.Takes service moment.event then n + 1 else n := by
            split
            · exact Nat.le_succ n
            · exact le_rfl
          obtain ⟨hlater, hsorted⟩ := ih hnext
          refine ⟨fun entry hmem => ?_, pairwise_append_of_le (fun entry hmem =>
            (hhere entry hmem).1) hle (fun entry hmem => (hlater entry hmem).1) hsorted⟩
          rcases List.mem_append.mp hmem with hmem | hmem
          · obtain ⟨hn, hrest⟩ := hhere entry hmem
            exact ⟨hn.ge, hrest⟩
          · obtain ⟨hge, hrest⟩ := hlater entry hmem
            exact ⟨hle.trans hge, hrest⟩

end Broker

end ReliableService
