import ReliableService.Requests.Sweeps
import ReliableService.Timing.Deadlines

/-!
# Answers in time

A client blocks until its request is answered.  `OnRecord` says what the broker keeps for it
meanwhile: a record under the service it asked for, with the deadline of the moment its request was
filed.  A call of a handler takes a record away from nobody but a client it answers
(`OnRecord.mono`), so the deadline stands until there is a response.

A sweep answers the records whose deadline is before its clock.  So a request that has no response
yet gets one at the first sweep that comes more than `REQUEST_TIMEOUT` after it was filed, and at no
earlier one, however many copies are dead or silent (`answered_by_sweep_iff`).
-/

namespace ReliableService

open ServiceRecord

variable {nmr : UInt8} {l : Ledger} {b b' : Broker nmr} {c : ClientId} {n : ℕ}
  {filed : List Timespec} {sent : List Output}

/-- The clock reading with which a request is filed. -/
def Event.filing : Event → Option Timespec
  | .request _ _ now _ => some now
  | _ => none

/-- The readings of all requests of a run, in their order. -/
def filings (events : List Event) : List Timespec := events.filterMap Event.filing

theorem filings_concat_of_none {past : List Event} {event : Event} (h : event.filing = none) :
    filings (past ++ [event]) = filings past := by
  rw [filings, List.filterMap_append, List.filterMap_cons_none h, List.filterMap_nil,
    List.append_nil]
  rfl

/-! ## The ledger -/

namespace Ledger

@[simp] theorem latest_observeAll (l : Ledger) (sent : List Output) :
    (l.observeAll sent).latest = l.latest := by
  induction sent generalizing l with
  | nil => rfl
  | cons output sent ih =>
      rw [show l.observeAll (output :: sent) = (l.observe output).observeAll sent from rfl, ih]
      cases output with
      | router c response => exact latest_respond response
      | dealer index envelope sm => rfl
      | reg port => rfl

theorem answered_subset_respond (l : Ledger) (c : ClientId) (response : ResponseModule) :
    l.answered ⊆ (l.respond c response).answered := by
  cases hlatest : l.latest c with
  | none => simp [respond, hlatest]
  | some n =>
      rw [answered_respond hlatest]
      exact List.subset_append_left ..

/-- Responses are not taken back. -/
theorem answered_subset_observeAll (l : Ledger) (sent : List Output) :
    l.answered ⊆ (l.observeAll sent).answered := by
  induction sent generalizing l with
  | nil => exact List.Subset.refl _
  | cons output sent ih =>
      have hfirst : l.answered ⊆ (l.observe output).answered := by
        cases output with
        | router c response => exact answered_subset_respond l c response
        | dealer index envelope sm => exact List.Subset.refl _
        | reg port => exact List.Subset.refl _
      exact List.Subset.trans hfirst (ih _)

/-- A response answers its client's last request. -/
theorem mem_answered_of_mem_sent {response : ResponseModule} (h : l.latest c = some n)
    (hsent : Output.router c response ∈ sent) : n ∈ (l.observeAll sent).answered := by
  obtain ⟨before, after, rfl⟩ := List.append_of_mem hsent
  rw [observeAll_append]
  apply answered_subset_observeAll ((l.observeAll before).respond c response) after
  rw [answered_respond (by rw [latest_observeAll, h])]
  exact List.mem_append_right _ (List.mem_singleton_self n)

end Ledger

/-! ## Records with their deadlines -/

/-- The record of a client that filed its request at time `t`. -/
def HasRecord (b : Broker nmr) (service : ServiceType) (c : ClientId) (t : Timespec) : Prop :=
  service ∈ b.availableServices ∧ ∃ record ∈ b.db.pending service,
    record.clientId = c ∧ record.timeout = timeAddMs t requestTimeout

/-- Every request without a response is its client's last one and has a record with the deadline
that was set when it was filed. -/
structure OnRecord (filed : List Timespec) (l : Ledger) (b : Broker nmr) : Prop where
  length_eq : filed.length = l.asks.length
  latest : ∀ n ask, l.asks[n]? = some ask → n ∉ l.answered → l.latest ask.clientId = some n
  record : ∀ n ask t, l.asks[n]? = some ask → n ∉ l.answered → filed[n]? = some t →
    HasRecord b ask.request.service ask.clientId t

/-- The records of clients that are not answered are still there, with their deadlines. -/
structure Retains (sent : List Output) (b b' : Broker nmr) : Prop where
  available : ∀ service ∈ b.availableServices, service ∈ b'.availableServices
  record : ∀ service, ∀ record ∈ b.db.pending service,
    (∀ response, Output.router record.clientId response ∉ sent) →
      ∃ record' ∈ b'.db.pending service,
        record'.clientId = record.clientId ∧ record'.timeout = record.timeout

theorem Retains.hasRecord (h : Retains sent b b') {service : ServiceType} {t : Timespec}
    (hrecord : HasRecord b service c t) (hsent : ∀ response, Output.router c response ∉ sent) :
    HasRecord b' service c t := by
  obtain ⟨havailable, record, hmem, hclient, htimeout⟩ := hrecord
  obtain ⟨record', hmem', hclient', htimeout'⟩ :=
    h.record service record hmem (by rwa [hclient])
  exact ⟨h.available service havailable, record', hmem', hclient'.trans hclient,
    htimeout'.trans htimeout⟩

theorem retains_of_samePending (havailable : ∀ service ∈ b.availableServices,
    service ∈ b'.availableServices) (hsame : SamePending b.db b'.db) : Retains sent b b' where
  available := havailable
  record service record hmem _ := ⟨record, by rwa [hsame service], rfl, rfl⟩

/-- **What a call answers** is all that it takes away. -/
theorem OnRecord.mono (h : OnRecord filed l b) (hretains : Retains sent b b') :
    OnRecord filed (l.observeAll sent) b' where
  length_eq := by rw [Ledger.asks_observeAll, h.length_eq]
  latest n ask hask hn := by
    rw [Ledger.asks_observeAll] at hask
    rw [Ledger.latest_observeAll]
    exact h.latest n ask hask fun hmem => hn (Ledger.answered_subset_observeAll l sent hmem)
  record n ask t hask hn ht := by
    rw [Ledger.asks_observeAll] at hask
    have hbefore : n ∉ l.answered :=
      fun hmem => hn (Ledger.answered_subset_observeAll l sent hmem)
    apply hretains.hasRecord (h.record n ask t hask hbefore ht)
    intro response hsent
    exact hn (Ledger.mem_answered_of_mem_sent (h.latest n ask hask hbefore) hsent)

/-! ## The handlers -/

namespace Broker

/-- A registration adds a service and removes none. -/
theorem retains_getRegistration {rm : RegistrationModule} {now : Timespec}
    (hb' : (b.getRegistration rm now).result = .ok b') : Retains sent b b' := by
  apply retains_of_samePending _ (samePending_getRegistration hb')
  intro service hservice
  rw [getRegistration_ok hb']
  split
  · exact List.mem_append_left _ hservice
  · exact hservice

theorem retains_heartbeat {i : ℕ} {now later : Timespec}
    (hb' : (b.heartbeat i now later).result = .ok b') : Retains sent b b' := by
  apply retains_of_samePending _ (samePending_heartbeat hb')
  intro service hservice
  by_cases hdue : b.Due i now
  · obtain ⟨_, _, -, -, rfl, -⟩ := heartbeat_ok hdue hb'
    exact hservice
  · rw [heartbeat_of_not_due hdue] at hb'
    rwa [← Except.ok.inj hb']

/-- A result that is filed leaves clients and deadlines as they are. -/
theorem retains_counted {record : ServiceRecord nmr} {reply : ServerReply}
    (hrecord : b.db.servicesDb reply.service = some record) :
    Retains sent b (b.counted record reply c) where
  available _ hservice := hservice
  record service pending hmem _ := by
    by_cases hservice : service = reply.service
    · subst hservice
      rw [ServiceDatabase.pending_of_some hrecord] at hmem
      refine ⟨if pending.clientId = c then withResult reply.result pending else pending, ?_, ?_⟩
      · rw [counted, ServiceDatabase.pending_insert_self]
        exact mem_appendResult.mpr ⟨pending, hmem, rfl⟩
      · split <;> exact ⟨rfl, rfl⟩
    · refine ⟨pending, ?_, rfl, rfl⟩
      rw [counted, ServiceDatabase.pending_insert_of_ne _ hservice]
      exact hmem

/-- Only the client that is answered loses its record. -/
theorem retains_decided {record : ServiceRecord nmr} {reply : ServerReply}
    {response : ResponseModule} (hrecord : b.db.servicesDb reply.service = some record) :
    Retains [.router c response] b (b.decided record reply c) where
  available _ hservice := hservice
  record service pending hmem hsent := by
    have hclient : pending.clientId ≠ c := by
      rintro rfl
      exact hsent response (List.mem_singleton_self _)
    refine ⟨pending, ?_, rfl, rfl⟩
    by_cases hservice : service = reply.service
    · subst hservice
      rw [ServiceDatabase.pending_of_some hrecord] at hmem
      rw [decided, ServiceDatabase.pending_insert_self]
      have hfiled : pending ∈ appendResult c reply.result record.requestRecords :=
        mem_appendResult.mpr ⟨pending, hmem, if_neg hclient⟩
      have hkept : pending ∈ ofClient pending.clientId
          (deleteLoop c (appendResult c reply.result record.requestRecords)) := by
        rw [ofClient_deleteLoop_of_ne hclient]
        exact mem_ofClient.mpr ⟨hfiled, rfl⟩
      exact (mem_ofClient.mp hkept).1
    · rw [decided, ServiceDatabase.pending_insert_of_ne _ hservice]
      exact hmem

theorem retains_getResponse (index : ℕ) {reply : ServerReply}
    (hb' : (getResponse everyone b index reply c).result = .ok b') :
    Retains (getResponse everyone b index reply c).sent b b' := by
  by_cases hpong : reply.heartbeat = true
  · obtain ⟨record, hrecord, -, rfl, -⟩ := getResponse_pong_ok hpong hb'
    exact retains_of_samePending (fun _ h => h) (samePending_insert hrecord rfl)
  rw [Bool.not_eq_true] at hpong
  by_cases hdup : reply.duplicated = true
  · rw [getResponse_duplicated hpong hdup] at hb'
    obtain rfl := Except.ok.inj hb'
    exact retains_of_samePending (fun _ h => h) fun _ => rfl
  rw [Bool.not_eq_true] at hdup
  cases hrecord : b.db.servicesDb reply.service with
  | none =>
      rw [getResponse, if_neg (by simp [hpong]), if_neg (by simp [hdup]),
        ServiceDatabase.pushResult, ServiceDatabase.lookup_of_none hrecord] at hb'
      cases hb'
  | some record =>
      by_cases hpending : ofClient c record.requestRecords = []
      · rw [getResponse_unclaimed hpong hdup hrecord hpending] at hb'
        obtain rfl := Except.ok.inj hb'
        exact retains_of_samePending (fun _ h => h) fun _ => rfl
      · rcases getResponse_counted_ok hpong hdup hrecord hpending hb' with
          ⟨rfl, -⟩ | ⟨rfl, response, hsent⟩
        · exact retains_counted hrecord
        · rw [hsent]
          exact retains_decided hrecord

/-- Every record that is expired has its answer. -/
theorem exists_answer {records : List RequestRecord} {record : RequestRecord}
    (h : List.Forall₂ (Answers nmr) records sent) (hmem : record ∈ records) :
    ∃ output ∈ sent, Answers nmr record output := by
  induction h with
  | nil => cases hmem
  | cons hanswers _ ih =>
      rcases List.mem_cons.mp hmem with rfl | hmem
      · exact ⟨_, List.mem_cons_self, hanswers⟩
      · obtain ⟨output, houtput, h⟩ := ih hmem
        exact ⟨output, List.mem_cons_of_mem _ houtput, h⟩

/-- A sweep that does what it is for answers whomever it deletes. -/
theorem Sweeps.retains {now : Timespec} (h : b.Sweeps now)
    (hb' : (checkPendingRequests everyone b now).result = .ok b') :
    Retains (checkPendingRequests everyone b now).sent b b' where
  available service hservice := by
    obtain ⟨db, -, rfl⟩ := checkPendingRequests_ok hb'
    exact hservice
  record service record hmem hsent := by
    obtain ⟨swept, hswept, hpending⟩ := h.removed
    obtain rfl : b' = swept := Except.ok.inj (hb'.symm.trans hswept)
    refine ⟨record, ?_, rfl, rfl⟩
    rw [hpending, pendingAfter]
    split
    · rename_i hservice
      refine List.mem_filter.mpr ⟨hmem, ?_⟩
      rw [Bool.not_eq_true', ← Bool.not_eq_true]
      intro hexpired
      have hdue : record ∈ b.expiredRecords now :=
        List.mem_flatMap.mpr ⟨service, hservice, List.mem_filter.mpr ⟨hmem, hexpired⟩⟩
      obtain ⟨output, houtput, response, rfl, -⟩ := exists_answer h.answered hdue
      exact hsent response houtput
    · exact hmem

/-- A service whose requests are forwarded is available. -/
theorem available_of_getRequest {request : RequestModule} {now later : Timespec}
    {record : ServiceRecord nmr} (htabled : b.Tabled)
    (hrecord : b.db.servicesDb request.service = some record)
    (hb' : (getRequest everyone b c request now later).result = .ok b') :
    request.service ∈ b.availableServices := by
  obtain ⟨-, hindex, -, -⟩ := getRequest_ok hrecord hb'
  rw [htabled.timeout_length] at hindex
  exact List.idxOf_lt_length_iff.mp hindex

/-- A request without a response is one of the old ones, of another client, or the new one. -/
theorem open_cases (h : OnRecord filed l b) (hidle : l.idle c = true)
    {request : RequestModule} {n : ℕ} {ask : Ask} (hask : (l.ask c request).asks[n]? = some ask)
    (hn : n ∉ l.answered) :
    (n < l.asks.length ∧ l.asks[n]? = some ask ∧ ask.clientId ≠ c) ∨
      (n = l.asks.length ∧ ask = ⟨c, request⟩) := by
  rcases lt_trichotomy n l.asks.length with hlt | rfl | hgt
  · rw [Ledger.asks_ask_of_lt hlt] at hask
    refine .inl ⟨hlt, hask, ?_⟩
    rintro hclient
    exact Ledger.idle_iff.mp hidle n ⟨hclient ▸ h.latest n ask hask hn, hn⟩
  · rw [Ledger.asks_ask_length] at hask
    exact .inr ⟨rfl, (Option.some.inj hask).symm⟩
  · rw [List.getElem?_eq_none (by simp [Ledger.ask]; omega)] at hask
    cases hask

theorem latest_ask (h : OnRecord filed l b) (hsound : l.Sound fun _ _ => True)
    (hidle : l.idle c = true) {request : RequestModule} {n : ℕ} {ask : Ask}
    (hask : (l.ask c request).asks[n]? = some ask) (hn : n ∉ l.answered) :
    (l.ask c request).latest ask.clientId = some n := by
  rcases open_cases h hidle hask hn with ⟨hlt, hold, hclient⟩ | ⟨rfl, rfl⟩
  · exact ((Ledger.waiting_ask_of_ne hclient request).mpr ⟨h.latest n ask hold hn, hn⟩).1
  · exact (Ledger.waiting_ask_self hsound c request).1

/-- A request for a service that is not in the database: the client is told, and nothing else
changes. -/
theorem onRecord_refused (h : OnRecord filed l b) (hsound : l.Sound fun _ _ => True)
    (hidle : l.idle c = true) (request : RequestModule) (now : Timespec) :
    OnRecord (filed ++ [now])
      ((l.ask c request).observeAll [.router c ⟨.serviceNotAvailable, none⟩]) b := by
  have hself := Ledger.waiting_ask_self hsound c request
  refine ⟨by simp [Ledger.asks_observeAll, Ledger.ask, h.length_eq], ?_, ?_⟩
  · intro n ask hask hn
    rw [Ledger.asks_observeAll] at hask
    rw [Ledger.latest_observeAll]
    exact latest_ask h hsound hidle hask fun hmem => hn (Ledger.answered_subset_observeAll _ _ hmem)
  · intro n ask t hask hn ht
    rw [Ledger.asks_observeAll] at hask
    have hbefore : n ∉ l.answered := fun hmem => hn (Ledger.answered_subset_observeAll _ _ hmem)
    rcases open_cases h hidle hask hbefore with ⟨hlt, hold, -⟩ | ⟨rfl, rfl⟩
    · rw [List.getElem?_append_left (h.length_eq ▸ hlt)] at ht
      exact h.record n ask t hold hbefore ht
    · exact absurd (Ledger.mem_answered_of_mem_sent hself.1 (List.mem_singleton_self _)) hn

/-- A request that is forwarded gets its record, and the other records stay. -/
theorem onRecord_forwarded (h : OnRecord filed l b) (hsound : l.Sound fun _ _ => True)
    (hidle : l.idle c = true) {request : RequestModule} {now : Timespec}
    {record : ServiceRecord nmr} (hrecord : b.db.servicesDb request.service = some record)
    (havailable : request.service ∈ b.availableServices) (timeout : List Timespec) :
    OnRecord (filed ++ [now]) (l.ask c request)
      { b with db := Broker.filed b.db record c request.service now, timeout := timeout } := by
  refine ⟨by simp [Ledger.ask, h.length_eq], fun n ask hask hn =>
    latest_ask h hsound hidle hask hn, ?_⟩
  intro n ask t hask hn ht
  rcases open_cases h hidle hask hn with ⟨hlt, hold, -⟩ | ⟨rfl, rfl⟩
  · rw [List.getElem?_append_left (h.length_eq ▸ hlt)] at ht
    obtain ⟨hservice, pending, hmem, hpending⟩ := h.record n ask t hold hn ht
    refine ⟨hservice, pending, ?_, hpending⟩
    show pending ∈ (Broker.filed b.db record c request.service now).pending _
    by_cases hsame : ask.request.service = request.service
    · rw [hsame, ServiceDatabase.pending_of_some hrecord] at hmem
      rw [hsame, Broker.filed, ServiceDatabase.pending_insert_self]
      exact List.mem_append_left _ hmem
    · rw [Broker.filed, ServiceDatabase.pending_insert_of_ne _ hsame,
        ServiceDatabase.pending_insert_of_ne _ hsame]
      exact hmem
  · rw [List.getElem?_append_right h.length_eq.le, h.length_eq, Nat.sub_self] at ht
    obtain rfl := Option.some.inj ht
    refine ⟨havailable, ⟨c, [], timeAddMs now requestTimeout⟩, ?_, rfl, rfl⟩
    show _ ∈ (Broker.filed b.db record c request.service now).pending request.service
    rw [Broker.filed, ServiceDatabase.pending_insert_self]
    exact List.mem_append_right _ (List.mem_singleton_self _)

/-- **A request** is answered at once or gets its record. -/
theorem onRecord_getRequest (h : OnRecord filed l b) (htabled : b.Tabled)
    (hsound : l.Sound fun _ _ => True) (hidle : l.idle c = true) {request : RequestModule}
    {now later : Timespec} (hb' : (getRequest everyone b c request now later).result = .ok b') :
    OnRecord (filed ++ [now])
      ((l.ask c request).observeAll (getRequest everyone b c request now later).sent) b' := by
  cases hrecord : b.db.servicesDb request.service with
  | none =>
      rw [getRequest_of_none hrecord] at hb' ⊢
      obtain rfl := Except.ok.inj hb'
      exact onRecord_refused h hsound hidle request now
  | some record =>
      have havailable := available_of_getRequest htabled hrecord hb'
      have hquiet : (l.ask c request).observeAll (getRequest everyone b c request now later).sent =
          l.ask c request := by
        apply Ledger.observeAll_eq_self
        intro c' response hmem
        cases mem_getRequest_sent hrecord hmem
      rw [hquiet]
      obtain ⟨-, -, -, rfl⟩ := getRequest_ok hrecord hb'
      exact onRecord_forwarded h hsound hidle hrecord havailable _

end Broker

/-! ## Runs -/

namespace Session

variable {s s' : Session nmr} {past : List Event}

/-- What holds of a session after a run with aligned sweeps. -/
structure Answering (past : List Event) (s : Session nmr) : Prop where
  orderly : s.Orderly
  tabled : ∀ b ∈ s.broker, b.Tabled
  vacant : ∀ b ∈ s.broker, b.Vacant
  undecided : 1 ≤ nmr.toNat → ∀ b ∈ s.broker, b.Open
  onRecord : ∀ b ∈ s.broker, OnRecord (filings past) s.ledger b

theorem answering_init (portRouter portReg : UInt16) :
    (init portRouter portReg : Session nmr).Answering [] where
  orderly := inOrder_init _ _ portRouter portReg
  tabled b hb := by
    obtain rfl := Option.some.inj (Option.mem_def.mp hb)
    exact Broker.tabled_init portRouter portReg
  vacant b hb := by
    obtain rfl := Option.some.inj (Option.mem_def.mp hb)
    exact fun _ => rfl
  undecided _ := open_init portRouter portReg
  onRecord b hb := by
    obtain rfl := Option.some.inj (Option.mem_def.mp hb)
    refine ⟨rfl, ?_, ?_⟩
    · intro n ask hask
      cases hask
    · intro n ask t hask
      cases hask

/-- An aligned sweep does what it is for. -/
theorem Answering.sweeps (h : s.Answering past) (hb : s.broker = some b) {now : Timespec}
    (haligned : s.SweepAligned (.sweep now)) : b.Sweeps now := by
  apply Broker.sweeps_of_aligned (h.tabled b hb) (h.orderly.2 b hb) _ (haligned b hb)
  intro service hservice record hmem
  by_cases hnmr : nmr.toNat = 0
  · rw [h.vacant b hb hnmr] at hservice
    exact absurd hservice List.not_mem_nil
  · exact ((h.undecided (Nat.one_le_iff_ne_zero.mpr hnmr) b hb).undecided service record hmem).1.le

/-- **One call** keeps the records of all clients that it does not answer. -/
theorem Answering.step (h : s.Answering past) {event : Event} (haligned : s.SweepAligned event)
    (hstep : s.step event = some s') : s'.Answering (past ++ [event]) := by
  refine ⟨Orderly.step h.orderly haligned hstep, ?_, ?_,
    fun hnmr => open_step hnmr (h.undecided hnmr) h.orderly hstep, ?_⟩
  all_goals
    obtain ⟨b, hb, hadmits, rfl⟩ := step_eq_some hstep
    intro b' hb'
    have hresult : (b.handle Broker.everyone event).result = .ok b' :=
      Outcome.toOption_eq_some.mp hb'
  · exact (h.tabled b hb).handle hresult
  · exact (h.vacant b hb).handle hresult
  · have hrecorded := h.onRecord b hb
    cases event with
    | request c request now later =>
        rw [filings, List.filterMap_append]
        exact Broker.onRecord_getRequest hrecorded (h.tabled b hb) h.orderly.1 hadmits hresult
    | registration rm now =>
        rw [filings_concat_of_none rfl]
        exact hrecorded.mono (Broker.retains_getRegistration hresult)
    | response index reply c =>
        rw [filings_concat_of_none rfl]
        exact hrecorded.mono (Broker.retains_getResponse index hresult)
    | heartbeat i now later =>
        rw [filings_concat_of_none rfl]
        exact hrecorded.mono (Broker.retains_heartbeat hresult)
    | sweep now =>
        rw [filings_concat_of_none rfl]
        exact hrecorded.mono ((h.sweeps hb haligned).retains hresult)

theorem answering_of_aligned {portRouter portReg : UInt16} {events : List Event}
    (haligned : Machine.Along step SweepAligned (init portRouter portReg : Session nmr) events)
    (hrun : Machine.run step (init portRouter portReg) events = some s) : s.Answering events :=
  show s.Answering ([] ++ events) from Machine.run_invariant_past (P := Answering)
    (fun _ _ _ _ h hok hstep => Answering.step h hok hstep) (answering_init portRouter portReg)
    haligned hrun

/-! ## The sweep that answers -/

/-- The record of a request is expired `REQUEST_TIMEOUT` after it was filed. -/
theorem expired_record_iff {record : RequestRecord} {t now : Timespec} (ht : t.Normalized)
    (hnow : now.Normalized) (htimeout : record.timeout = timeAddMs t requestTimeout) :
    record.expired now = true ↔ t.nanoseconds + requestTimeout * 1000000 < now.nanoseconds := by
  have hexact := (exactDeadline_broker ht).2.compares now hnow
  rw [RequestRecord.expired, decide_eq_true_iff, htimeout, hexact, Int.sign_eq_one_iff_pos]
  omega

/-- **One sweep** answers the requests that are older than `REQUEST_TIMEOUT`. -/
theorem Answering.mem_answered_iff (h : s.Answering past) {now : Timespec} (hnow : now.Normalized)
    (hclock : ∀ t ∈ filings past, t.Normalized) (haligned : s.SweepAligned (.sweep now))
    (hstep : s.step (.sweep now) = some s') {n : ℕ} {t : Timespec}
    (ht : (filings past)[n]? = some t) (hwaiting : n ∉ s.ledger.answered) :
    n ∈ s'.ledger.answered ↔ t.nanoseconds + requestTimeout * 1000000 < now.nanoseconds := by
  have hnext : s'.Answering (past ++ [.sweep now]) := h.step haligned hstep
  have hbefore : t.Normalized := hclock t (List.mem_of_getElem? ht)
  obtain ⟨b, hb, -, rfl⟩ := step_eq_some hstep
  have hsweeps := h.sweeps hb haligned
  obtain ⟨b', hb', hpending⟩ := hsweeps.removed
  have hrecorded := h.onRecord b hb
  obtain ⟨ask, hask⟩ : ∃ ask, s.ledger.asks[n]? = some ask := by
    have hlt := (List.getElem?_eq_some_iff.mp ht).1
    rw [hrecorded.length_eq] at hlt
    exact ⟨_, List.getElem?_eq_getElem hlt⟩
  have hlatest := hrecorded.latest n ask hask hwaiting
  obtain ⟨havailable, record, hmem, hclient, htimeout⟩ := hrecorded.record n ask t hask hwaiting ht
  rw [← expired_record_iff hbefore hnow htimeout]
  constructor
  · -- a record that is not expired is still there, and its client is waiting
    intro hanswered
    by_contra hexpired
    have hleft : record ∈ b'.db.pending ask.request.service := by
      rw [hpending, Broker.pendingAfter, if_pos havailable]
      exact List.mem_filter.mpr ⟨hmem, by simpa using hexpired⟩
    have hmem' : b' ∈ (b.handle Broker.everyone (.sweep now)).result.toOption :=
      Outcome.toOption_eq_some.mpr hb'
    obtain ⟨m, -, hm, -⟩ := (hnext.orderly.2 b' hmem').owner _ record hleft
    obtain ⟨hm, hunanswered⟩ := hm
    rw [Ledger.latest_observeAll, hclient] at hm
    obtain rfl : n = m := Option.some.inj (hlatest.symm.trans hm)
    exact hunanswered hanswered
  · intro hexpired
    have hdue : record ∈ b.expiredRecords now :=
      List.mem_flatMap.mpr ⟨_, havailable, List.mem_filter.mpr ⟨hmem, hexpired⟩⟩
    obtain ⟨output, houtput, response, rfl, -⟩ := Broker.exists_answer hsweeps.answered hdue
    exact Ledger.mem_answered_of_mem_sent (hclient ▸ hlatest) houtput

/-- **Every request is answered in time.**  In every run with aligned sweeps, a request without a
response gets one at the first sweep more than `REQUEST_TIMEOUT` after it was filed, and at none
before. -/
theorem answered_by_sweep_iff (portRouter portReg : UInt16) {events : List Event} {now : Timespec}
    (hclock : ∀ t ∈ now :: filings events, t.Normalized)
    (haligned : Machine.Along step SweepAligned (init portRouter portReg : Session nmr)
      (events ++ [.sweep now]))
    {s s' : Session nmr} (hrun : Machine.run step (init portRouter portReg) events = some s)
    (hstep : s.step (.sweep now) = some s') {n : ℕ} {t : Timespec}
    (ht : (filings events)[n]? = some t) (hwaiting : n ∉ s.ledger.answered) :
    n ∈ s'.ledger.answered ↔ t.nanoseconds + requestTimeout * 1000000 < now.nanoseconds :=
  (answering_of_aligned haligned.of_append hrun).mem_answered_iff
    (hclock now List.mem_cons_self) (fun t ht => hclock t (List.mem_cons_of_mem _ ht))
    (haligned.at hrun) hstep ht hwaiting

/-- Service `0` is complete and its copies are silent; client 7 asks at `0` and client 8 a second
later. -/
def silentRun : List Event :=
  [.registration ⟨"pippo", 0⟩ ⟨0, 0⟩, .registration ⟨"pippo", 0⟩ ⟨0, 0⟩,
    .request 7 ⟨0, Vector.replicate paramSize 0⟩ ⟨0, 0⟩ ⟨0, 0⟩,
    .request 8 ⟨0, Vector.replicate paramSize 0⟩ ⟨1, 0⟩ ⟨1, 0⟩, .sweep ⟨5, 0⟩]

/-- At five seconds the first client still waits; a nanosecond later it has its response, and the
second client waits. -/
theorem answered_by_sweep_iff_silentRun :
    ∃ s s', Machine.run step (init 5559 5555 : Session 2) silentRun = some s ∧
      s.step (.sweep ⟨5, 1⟩) = some s' ∧ 0 ∉ s.ledger.answered ∧ 1 ∉ s.ledger.answered ∧
      0 ∈ s'.ledger.answered ∧ 1 ∉ s'.ledger.answered := by
  have hrun : (Machine.run step (init 5559 5555 : Session 2) silentRun).isSome := by
    decide +kernel
  obtain ⟨s, hs⟩ := Option.isSome_iff_exists.mp hrun
  have hnone : (Machine.run step (init 5559 5555 : Session 2) silentRun).map
      (·.ledger.answered) = some [] := by decide +kernel
  have hnext : ((Machine.run step (init 5559 5555 : Session 2) silentRun).bind
      (·.step (.sweep ⟨5, 1⟩))).isSome := by decide +kernel
  rw [hs] at hnone hnext
  obtain ⟨s', hs'⟩ := Option.isSome_iff_exists.mp hnext
  have hwaiting : s.ledger.answered = [] := Option.some.inj hnone
  have hclock : ∀ t ∈ (⟨5, 1⟩ : Timespec) :: filings silentRun, t.Normalized := by
    intro t ht
    simp only [filings, silentRun, List.mem_cons, List.filterMap_cons, Event.filing,
      List.filterMap_nil, List.not_mem_nil, or_false] at ht
    rcases ht with rfl | rfl | rfl <;> constructor <;> decide
  have haligned : Machine.Along step SweepAligned (init 5559 5555 : Session 2)
      (silentRun ++ [.sweep ⟨5, 1⟩]) := by decide +kernel
  have hiff := fun n t ht => answered_by_sweep_iff 5559 5555 hclock haligned hs hs' (n := n)
    (t := t) ht (hwaiting ▸ List.not_mem_nil)
  exact ⟨s, s', hs, hs', hwaiting ▸ List.not_mem_nil, hwaiting ▸ List.not_mem_nil,
    (hiff 0 ⟨0, 0⟩ rfl).mpr (by decide), fun h => absurd ((hiff 1 ⟨1, 0⟩ rfl).mp h) (by decide)⟩

end Session

end ReliableService
