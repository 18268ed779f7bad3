import ReliableService.Handlers.Effects
import ReliableService.Requests.Ownership

/-!
# The handlers keep the books

`Books` is the invariant of a session: the ledger is sound and every record belongs to a
waiting client.  `Settles` says that a handler keeps it, including the messages a failing
handler has sent before it failed.

Every handler settles unconditionally but one.  `check_pending_requests` deletes the
request under the service type `i`, where `i` is the position of the service it is
looking at, so a sweep settles while it finds expired records only at positions that are
their own service's number (`Aligned`).
-/

namespace ReliableService

open ServiceRecord Majority

variable {nmr : UInt8} {fit fit' : ℕ → List Int32 → Prop} {good : ℕ → ResponseModule → Prop}
  {l : Ledger} {db : ServiceDatabase nmr} {b : Broker nmr} {c : ClientId}

/-- The ledger is sound, and every record belongs to a waiting client. -/
def Books (fit : ℕ → List Int32 → Prop) (good : ℕ → ResponseModule → Prop) (l : Ledger)
    (db : ServiceDatabase nmr) : Prop :=
  l.Sound good ∧ Kept fit l db

/-- The handler leaves the books in order, and the ledger even if it fails. -/
def Settles (fit : ℕ → List Int32 → Prop) (good : ℕ → ResponseModule → Prop) (l : Ledger)
    (m : Effect (Broker nmr)) : Prop :=
  m.Ends [] (fun b sent => Books fit good (l.observeAll sent) b.db)
    (fun sent => (l.observeAll sent).Sound good)

/-- What the results of a record are good for. -/
structure Justifies (nmr : UInt8) (fit : ℕ → List Int32 → Prop)
    (good : ℕ → ResponseModule → Prop) : Prop where
  winner : ∀ n results v, fit n results → Wins (nmr.toNat / 2) v results →
    good n ⟨.serviceAvailable, some v⟩
  refusal : ∀ n status result, status ≠ .serviceAvailable → good n ⟨status, result⟩

theorem Justifies.verdict (hjust : Justifies nmr fit good) {n : ℕ} {values : List Int32}
    (hfit : fit n values) {ret : Int8} {before result : Option Int32}
    (hvote : (vote nmr values before).result = .ok (ret, result)) :
    good n ⟨if 0 ≤ ret then .serviceAvailable else .serviceNotReliable, result⟩ := by
  split
  · rename_i hret
    obtain ⟨v, rfl, hwins⟩ := vote_sound hvote hret
    exact hjust.winner n values v hfit hwins
  · exact hjust.refusal n _ result (by simp)

/-! ## Handlers that answer nobody -/

theorem settles_of_quiet {m : Effect (Broker nmr)} (hbooks : Books fit good l b.db)
    (hquiet : ∀ c response, Output.router c response ∉ m.sent)
    (hsame : ∀ b', m.result = .ok b' → SamePending b.db b'.db) : Settles fit good l m := by
  unfold Settles
  cases h : m.result with
  | error fault =>
      rw [Outcome.ends_of_error h, List.nil_append, Ledger.observeAll_eq_self hquiet]
      exact hbooks.1
  | ok b' =>
      rw [Outcome.ends_of_ok h, List.nil_append, Ledger.observeAll_eq_self hquiet]
      exact ⟨hbooks.1, hbooks.2.congr (hsame b' h)⟩

theorem samePending_insert {service : ServiceType} {record record' : ServiceRecord nmr}
    (h : db.servicesDb service = some record)
    (heq : record'.requestRecords = record.requestRecords) :
    SamePending db (db.insert service record') :=
  ServiceDatabase.pending_insert_of_eq (by rw [ServiceDatabase.pending_of_some h, heq])

theorem samePending_pushRegistration (db : ServiceDatabase nmr) (rm : RegistrationModule)
    (port : UInt16) : SamePending db (db.pushRegistration rm port).db := by
  unfold ServiceDatabase.pushRegistration
  cases hrecord : db.servicesDb rm.service with
  | none =>
      intro service
      have hempty : db.pending rm.service = [] := ServiceDatabase.pending_of_none hrecord
      exact ServiceDatabase.pending_insert_of_eq hempty service
  | some record =>
      dsimp only
      cases hregister : record.register with
      | none => exact fun service => rfl
      | some record' =>
          apply samePending_insert hrecord
          unfold register at hregister
          split at hregister
          · rw [← Option.some.inj hregister]
          · cases hregister

theorem samePending_getRegistration {b' : Broker nmr} {rm : RegistrationModule} {now : Timespec}
    (hb' : (b.getRegistration rm now).result = .ok b') : SamePending b.db b'.db := by
  have hdb : b'.db = (b.db.pushRegistration rm b.availableDealerPort).db := by
    rw [Broker.getRegistration_ok hb']
    split <;> rfl
  rw [hdb]
  exact samePending_pushRegistration b.db rm b.availableDealerPort

theorem settles_getRegistration (hbooks : Books fit good l b.db) (rm : RegistrationModule)
    (now : Timespec) : Settles fit good l (b.getRegistration rm now) := by
  apply settles_of_quiet hbooks
  · intro c response hmem
    cases Broker.mem_getRegistration_sent hmem
  · exact fun b' hb' => samePending_getRegistration hb'

theorem samePending_heartbeat {b' : Broker nmr} {i : ℕ} {now later : Timespec}
    (hb' : (b.heartbeat i now later).result = .ok b') : SamePending b.db b'.db := by
  by_cases hdue : b.Due i now
  · obtain ⟨service, record, -, hrecord, rfl, -⟩ := Broker.heartbeat_ok hdue hb'
    exact samePending_insert hrecord rfl
  · rw [Broker.heartbeat_of_not_due hdue] at hb'
    rw [← Except.ok.inj hb']
    exact fun service => rfl

theorem settles_heartbeat (hbooks : Books fit good l b.db) (i : ℕ) (now later : Timespec) :
    Settles fit good l (b.heartbeat i now later) := by
  apply settles_of_quiet hbooks
  · intro c response hmem
    obtain ⟨seqId, h⟩ := Broker.mem_heartbeat_sent hmem
    cases h
  · exact fun b' hb' => samePending_heartbeat hb'

/-! ## Requests -/

theorem settles_getRequest (hbooks : Books fit good l b.db) (hidle : ∀ n, ¬ l.Waiting c n)
    (hnew : fit l.asks.length [])
    (hrefusal : ∀ n, good n ⟨.serviceNotAvailable, none⟩) (request : RequestModule)
    (now later : Timespec) :
    Settles fit good (l.ask c request)
      (Broker.getRequest Broker.everyone b c request now later) := by
  have hsound := hbooks.1.ask c request
  cases hrecord : b.db.servicesDb request.service with
  | none =>
      rw [Broker.getRequest_of_none hrecord]
      have hwaiting := Ledger.waiting_ask_self hbooks.1 c request
      refine ⟨hsound.respond hwaiting (hrefusal _), ?_⟩
      refine (hbooks.2.ask hidle request).mono_ledger ?_ ?_
      · intro service record hmem n hw
        have hne : record.clientId ≠ c := by
          intro heq
          obtain ⟨m, ask, hold, -⟩ := hbooks.2.owner service record hmem
          exact hidle m (heq ▸ hold)
        exact (hsound.waiting_respond_of_ne hne _).mpr hw
      · intro n ask hask
        exact (congrArg (·[n]?) (Ledger.asks_respond _)).trans hask
  | some record =>
      have hquiet : ∀ c' response, Output.router c' response ∉
          (Broker.getRequest Broker.everyone b c request now later).sent := by
        intro c' response hmem
        cases Broker.mem_getRequest_sent hrecord hmem
      unfold Settles
      cases h : (Broker.getRequest Broker.everyone b c request now later).result with
      | error fault =>
          rw [Outcome.ends_of_error h, List.nil_append, Ledger.observeAll_eq_self hquiet]
          exact hsound
      | ok b' =>
          rw [Outcome.ends_of_ok h, List.nil_append, Ledger.observeAll_eq_self hquiet]
          obtain ⟨-, -, -, rfl⟩ := Broker.getRequest_ok hrecord h
          refine ⟨hsound, ?_⟩
          -- `get_request_id` only moves the counter
          have hsame : SamePending b.db (b.db.insert request.service
              { record with seqIdRequest := record.seqIdRequest + 1 }) :=
            samePending_insert hrecord rfl
          have hcounter := hbooks.2.congr hsame
          exact hcounter.push hbooks.1 hidle (ServiceDatabase.insert_self ..) hnew _

/-! ## Replies -/

variable {index : ℕ} {reply : ServerReply}

theorem settles_getResponse_of_not_counts (hbooks : Books fit good l b.db)
    (hcounts : ¬ b.Counts reply c) :
    Settles fit good l (Broker.getResponse Broker.everyone b index reply c) := by
  have hquiet : (Broker.getResponse Broker.everyone b index reply c).sent = [] ∧
      ∀ b', (Broker.getResponse Broker.everyone b index reply c).result = .ok b' →
        SamePending b.db b'.db := by
    by_cases hpong : reply.heartbeat = true
    · refine ⟨?_, ?_⟩
      · rw [Broker.getResponse_pong hpong]
        unfold ServiceDatabase.registerPong
        cases hrecord : b.db.servicesDb reply.service with
        | none =>
            rw [ServiceDatabase.lookup_of_none hrecord]
            rfl
        | some record =>
            rw [ServiceDatabase.lookup_of_some hrecord, Outcome.pure_bind']
            split <;> rfl
      · intro b' hb'
        obtain ⟨record, hrecord, -, rfl, -⟩ := Broker.getResponse_pong_ok hpong hb'
        exact samePending_insert hrecord rfl
    · rw [Bool.not_eq_true] at hpong
      by_cases hdup : reply.duplicated = true
      · rw [Broker.getResponse_duplicated hpong hdup]
        refine ⟨rfl, ?_⟩
        intro b' hb'
        rw [← Except.ok.inj hb']
        exact fun service => rfl
      · rw [Bool.not_eq_true] at hdup
        cases hrecord : b.db.servicesDb reply.service with
        | none =>
            have hfail : Broker.getResponse Broker.everyone b index reply c =
                Outcome.fail .exitFailure := by
              rw [Broker.getResponse, if_neg (by simp [hpong]), if_neg (by simp [hdup]),
                ServiceDatabase.pushResult, ServiceDatabase.lookup_of_none hrecord]
              rfl
            rw [hfail]
            exact ⟨rfl, fun b' hb' => by cases hb'⟩
        | some record =>
            have hnone : ofClient c record.requestRecords = [] := by
              by_contra hne
              exact hcounts ⟨hpong, hdup, by rwa [ServiceDatabase.pending_of_some hrecord]⟩
            rw [Broker.getResponse_unclaimed hpong hdup hrecord hnone]
            refine ⟨rfl, ?_⟩
            intro b' hb'
            rw [← Except.ok.inj hb']
            exact fun service => rfl
  exact settles_of_quiet hbooks (fun c' response => by simp [hquiet.1]) hquiet.2

/-- The vote decides: the client gets its response, and its record is deleted. -/
private theorem Books.decided (hbooks : Books fit good l b.db) {record : ServiceRecord nmr} {n : ℕ}
    {response : ResponseModule} (hpending : ofClient c record.requestRecords ≠ [])
    (hcounted : Kept fit' l (b.counted record reply c).db) (hwaiting : l.Waiting c n)
    (hgood : good n response) :
    Books fit' good (l.respond c response) (b.decided record reply c).db := by
  have hpending' : ofClient c (Broker.withReply record c reply.result).requestRecords ≠ [] := by
    simpa [Broker.withReply, ofClient_appendResult_self] using hpending
  have hkept := hcounted.answer hbooks.1 (ServiceDatabase.insert_self ..) hpending' response
  refine ⟨hbooks.1.respond hwaiting hgood, ?_⟩
  apply hkept.congr
  intro service
  by_cases hs : service = reply.service
  · rw [hs, ServiceDatabase.pending_insert_self]
    exact ServiceDatabase.pending_insert_self ..
  · rw [ServiceDatabase.pending_insert_of_ne _ hs]
    exact (ServiceDatabase.pending_insert_of_ne _ hs _).trans
      (ServiceDatabase.pending_insert_of_ne _ hs _).symm

theorem settles_getResponse_of_counts (hbooks : Books fit good l b.db)
    (hjust : Justifies nmr fit' good) (hcounts : b.Counts reply c)
    (hself : ∀ n results, l.Waiting c n → fit n results → fit' n (results ++ [reply.result]))
    (hother : ∀ c' n results, c' ≠ c → l.Waiting c' n → fit n results → fit' n results) :
    Settles fit' good l (Broker.getResponse Broker.everyone b index reply c) := by
  obtain ⟨hpong, hdup, hpending⟩ := hcounts
  obtain ⟨record, hrecord⟩ : ∃ record, b.db.servicesDb reply.service = some record := by
    rw [← Option.ne_none_iff_exists']
    intro hnone
    simp [ServiceDatabase.pending_of_none hnone] at hpending
  have hstored := ServiceDatabase.pending_of_some hrecord
  rw [hstored] at hpending
  obtain ⟨last, hlast⟩ := Option.ne_none_iff_exists'.mp
    (mt List.getLast?_eq_none_iff.mp hpending)
  obtain ⟨hmem, hclient⟩ := mem_ofClient.mp (List.mem_of_getLast? hlast)
  obtain ⟨n, ask, hwaiting, hask, hservice, hfit⟩ :=
    hbooks.2.owner reply.service last (hstored ▸ hmem)
  rw [hclient] at hwaiting
  have hfit' := hself n _ hwaiting hfit
  -- the result is filed
  have happend : Kept fit' l (b.counted record reply c).db :=
    hbooks.2.append hrecord hpending hself hother
  have hanswer : ∀ response, good n response →
      Books fit' good (l.respond c response) (b.decided record reply c).db :=
    fun response hgood => hbooks.decided hpending happend hwaiting hgood
  unfold Settles
  rw [Broker.getResponse_counted hpong hdup hrecord hlast]
  split
  · rw [Outcome.ends_bind]
    cases hvote : (vote nmr (last.results ++ [reply.result]) none).result with
    | error fault =>
        rw [Outcome.ends_of_error hvote, vote_sent]
        exact hbooks.1
    | ok voted =>
        obtain ⟨ret, result⟩ := voted
        have hgood := hjust.verdict hfit' hvote
        rw [Outcome.ends_of_ok hvote, vote_sent]
        dsimp only
        split_ifs with hret hall
        · rw [if_pos hret] at hgood
          exact hanswer _ hgood
        · rw [if_neg hret] at hgood
          exact hanswer _ hgood
        · exact ⟨hbooks.1, happend⟩
  · exact ⟨hbooks.1, happend⟩

/-! ## Sweeps -/

/-- The sweep over these services finds expired records only at positions that are the
number of their service. -/
def Aligned (db : ServiceDatabase nmr) (now : Timespec) (entries : List (ServiceType × ℕ)) : Prop :=
  ∀ entry ∈ entries, ∀ record ∈ db.pending entry.1,
    timeCmp now record.timeout = 1 → UInt32.ofNat entry.2 = entry.1

theorem Aligned.mono {now : Timespec} {entries entries' : List (ServiceType × ℕ)}
    {db' : ServiceDatabase nmr} (h : Aligned db now entries) (hsubset : entries' ⊆ entries)
    (hpending : ∀ service, (db'.pending service).Sublist (db.pending service)) :
    Aligned db' now entries' :=
  fun entry hentry record hmem =>
    h entry (hsubset hentry) record ((hpending entry.1).subset hmem)

/-- One record of a sweep. -/
private theorem ends_sweepRecord (hjust : Justifies nmr fit good) {now : Timespec} {i : ℕ}
    {service : ServiceType} {state : Option Int32 × ServiceDatabase nmr} {pending : RequestRecord}
    {sent : List Output} (hbooks : Books fit good (l.observeAll sent) state.2)
    (hmem : pending ∈ state.2.pending service)
    (haligned : timeCmp now pending.timeout = 1 → UInt32.ofNat i = service) :
    (Broker.sweepRecord Broker.everyone now i state pending).Ends sent
      (fun state' sent' => Books fit good (l.observeAll sent') state'.2 ∧
        (∀ other, (state'.2.pending other).Sublist (state.2.pending other)) ∧
        ∀ other ∈ state.2.pending service, other.clientId ≠ pending.clientId →
          other ∈ state'.2.pending service)
      (fun sent' => (l.observeAll sent').Sound good) := by
  unfold Broker.sweepRecord
  split_ifs with hexpired
  · obtain ⟨n, ask, hwaiting, -, -, hfit⟩ := hbooks.2.owner service pending hmem
    rw [haligned hexpired, Outcome.ends_bind]
    cases hvote : (vote nmr pending.results state.1).result with
    | error fault =>
        rw [Outcome.ends_of_error hvote, vote_sent, List.append_nil]
        exact hbooks.1
    | ok voted =>
        obtain ⟨ret, result⟩ := voted
        obtain ⟨record, hrecord⟩ : ∃ record, state.2.servicesDb service = some record := by
          rw [← Option.ne_none_iff_exists']
          intro hnone
          simp [ServiceDatabase.pending_of_none hnone] at hmem
        have hstored := ServiceDatabase.pending_of_some hrecord
        have hpending : ofClient pending.clientId record.requestRecords ≠ [] :=
          List.ne_nil_of_mem (mem_ofClient.mpr ⟨hstored ▸ hmem, rfl⟩)
        rw [Outcome.ends_of_ok hvote, vote_sent, List.append_nil]
        dsimp only
        rw [Broker.sendRouter_everyone, ServiceDatabase.deleteRequest_of_some hrecord,
          Outcome.pure_bind', Outcome.ends_bind, Outcome.ends_of_ok (Outcome.tell_result _),
          Outcome.ends_pure, Outcome.tell_sent, Ledger.observeAll_append]
        refine ⟨⟨hbooks.1.respond hwaiting (hjust.verdict hfit hvote),
          hbooks.2.answer hbooks.1 hrecord hpending _⟩,
          fun other => ServiceDatabase.pending_delete hrecord _, ?_⟩
        intro other hother hne
        have hleft : other ∈ ofClient other.clientId (deleteLoop pending.clientId
            record.requestRecords) := by
          rw [ofClient_deleteLoop_of_ne hne, ← hstored]
          exact mem_ofClient.mpr ⟨hother, rfl⟩
        rw [ServiceDatabase.pending_insert_self]
        exact (mem_ofClient.mp hleft).1
  · rw [Outcome.ends_pure]
    exact ⟨hbooks, fun other => List.Sublist.refl _, fun other hother _ => hother⟩

/-- One service of a sweep. -/
private theorem ends_sweepService (hjust : Justifies nmr fit good) {now : Timespec}
    {entry : ServiceType × ℕ} {state : Option Int32 × ServiceDatabase nmr} {sent : List Output}
    (hbooks : Books fit good (l.observeAll sent) state.2)
    (haligned : ∀ record ∈ state.2.pending entry.1,
      timeCmp now record.timeout = 1 → UInt32.ofNat entry.2 = entry.1) :
    (Broker.sweepService Broker.everyone now state entry).Ends sent
      (fun state' sent' => Books fit good (l.observeAll sent') state'.2 ∧
        ∀ other, (state'.2.pending other).Sublist (state.2.pending other))
      (fun sent' => (l.observeAll sent').Sound good) := by
  unfold Broker.sweepService
  cases hrecord : state.2.servicesDb entry.1 with
  | none =>
      rw [ServiceDatabase.getPendingRequests, ServiceDatabase.lookup_of_none hrecord]
      exact (Outcome.ends_fail _).mpr hbooks.1
  | some record =>
      rw [ServiceDatabase.getPendingRequests_of_some hrecord, Outcome.pure_bind',
        ← ServiceDatabase.pending_of_some hrecord]
      -- the records still to come are in the database, each of a client of its own
      refine Outcome.Ends.imp (Outcome.ends_foldlM
        (P := fun rest t sent' => Books fit good (l.observeAll sent') t.2 ∧
          (∀ other, (t.2.pending other).Sublist (state.2.pending other)) ∧
          (∀ record ∈ rest, record ∈ t.2.pending entry.1) ∧
          (rest.map (·.clientId)).Nodup) ?_
        ⟨hbooks, fun other => List.Sublist.refl _, fun record hmem => hmem,
          nodup_clients (hbooks.2.single entry.1)⟩)
        (fun t sent' h => ⟨h.1, h.2.1⟩) fun sent' h => h
      · rintro pending rest t sent' ⟨hbooks', hsub, hmem, hnodup⟩
        have hpending := hmem pending List.mem_cons_self
        have hone := ends_sweepRecord hjust hbooks' hpending
          (haligned pending ((hsub entry.1).subset hpending))
        rw [List.map_cons, List.nodup_cons] at hnodup
        refine hone.imp ?_ fun sent'' h => h
        intro t' sent'' h
        obtain ⟨hbooks'', hsub', hkeep⟩ := h
        refine ⟨hbooks'', fun other => (hsub' other).trans (hsub other), fun record hrec => ?_,
          hnodup.2⟩
        apply hkeep record (hmem record (List.mem_cons_of_mem _ hrec))
        intro heq
        exact hnodup.1 (List.mem_map.mpr ⟨record, hrec, heq⟩)

theorem settles_checkPendingRequests (hbooks : Books fit good l b.db)
    (hjust : Justifies nmr fit good) {now : Timespec}
    (haligned : Aligned b.db now b.availableServices.zipIdx) :
    Settles fit good l (Broker.checkPendingRequests Broker.everyone b now) := by
  unfold Settles Broker.checkPendingRequests
  rw [Outcome.ends_bind]
  refine Outcome.Ends.imp (Outcome.ends_foldlM
    (P := fun rest t sent' => Books fit good (l.observeAll sent') t.2 ∧ Aligned t.2 now rest)
    ?_ ?_) (fun t sent' h => (Outcome.ends_pure _).mpr h.1) fun sent' h => h
  · rintro entry rest t sent' ⟨hbooks', haligned'⟩
    have hone := ends_sweepService hjust hbooks' (haligned' entry List.mem_cons_self)
    exact hone.imp (fun t' sent'' h => ⟨h.1, haligned'.mono (List.subset_cons_self ..) h.2⟩)
      fun sent'' h => h
  · exact ⟨hbooks, haligned⟩

/-! ## One step of a session -/

namespace Session

variable {s s' : Session nmr} {event : Event}

/-- The books of a session: the ledger is sound, and so are the records of a broker that
is still there. -/
def InOrder (fit : ℕ → List Int32 → Prop) (good : ℕ → ResponseModule → Prop) (s : Session nmr) :
    Prop :=
  s.ledger.Sound good ∧ ∀ b ∈ s.broker, Kept fit s.ledger b.db

/-- A sweep finds expired records only at positions that are their service's number. -/
def SweepAligned (s : Session nmr) : Event → Prop
  | .sweep now => ∀ b ∈ s.broker, Aligned b.db now b.availableServices.zipIdx
  | _ => True

theorem inOrder_init (fit : ℕ → List Int32 → Prop) (good : ℕ → ResponseModule → Prop)
    (portRouter portReg : UInt16) :
    (Session.init portRouter portReg : Session nmr).InOrder fit good := by
  refine ⟨Ledger.sound_init _, ?_⟩
  intro b hb
  rw [← Option.some.inj (Option.mem_def.mp hb)]
  exact kept_init _ _

/-- What a handler settles, the session has in order. -/
theorem inOrder_of_settles {m : Effect (Broker nmr)} (h : Settles fit good l m) :
    InOrder fit good ⟨m.result.toOption, l.observeAll m.sent⟩ := by
  unfold Settles at h
  cases hresult : m.result with
  | error fault =>
      refine ⟨(Outcome.ends_of_error hresult).mp h, ?_⟩
      intro b hb
      cases hb
  | ok b' =>
      obtain ⟨hsound, hkept⟩ := (Outcome.ends_of_ok hresult).mp h
      refine ⟨hsound, ?_⟩
      intro b hb
      rw [← Option.some.inj (Option.mem_def.mp hb)]
      exact hkept

/-- A possible step has a broker that handles the event. -/
theorem step_eq_some (h : s.step event = some s') :
    ∃ b, s.broker = some b ∧ s.ledger.admits event = true ∧
      s' = ⟨(b.handle Broker.everyone event).result.toOption,
        (s.ledger.opened event).observeAll (b.handle Broker.everyone event).sent⟩ := by
  unfold step at h
  split at h
  · cases h
  · rename_i b hb
    split at h
    · rename_i hadmits
      exact ⟨b, hb, hadmits, (Option.some.inj h).symm⟩
    · cases h

/-- **One step keeps the session in order.**  `fit'` is what the records guarantee after the
step; only a reply that counts changes it. -/
theorem InOrder.step (h : s.InOrder fit good) (hmono : ∀ n results, fit n results → fit' n results)
    (hjust : Justifies nmr fit' good)
    (hnew : ∀ c request now later, event = .request c request now later →
      fit' s.ledger.asks.length [])
    (hcounted : ∀ index reply c, event = .response index reply c → ∀ b ∈ s.broker,
      b.Counts reply c → ∀ n results, s.ledger.Waiting c n → fit n results →
        fit' n (results ++ [reply.result]))
    (haligned : s.SweepAligned event) (hstep : s.step event = some s') : s'.InOrder fit' good := by
  obtain ⟨b, hb, hadmits, rfl⟩ := step_eq_some hstep
  have hkept : Kept fit' s.ledger b.db := (h.2 b hb).imp hmono
  have hbooks : Books fit' good s.ledger b.db := ⟨h.1, hkept⟩
  apply inOrder_of_settles
  cases event with
  | registration rm now => exact settles_getRegistration hbooks rm now
  | request c request now later =>
      exact settles_getRequest hbooks (Ledger.idle_iff.mp hadmits) (hnew c request now later rfl)
        (fun n => hjust.refusal n _ _ (by simp)) request now later
  | response index reply c =>
      show Settles fit' good s.ledger (Broker.getResponse Broker.everyone b index reply c)
      by_cases hcounts : b.Counts reply c
      · exact settles_getResponse_of_counts ⟨h.1, h.2 b hb⟩ hjust hcounts
          (hcounted index reply c rfl b hb hcounts) fun _ n results _ _ => hmono n results
      · exact settles_getResponse_of_not_counts hbooks hcounts
  | heartbeat i now later => exact settles_heartbeat hbooks i now later
  | sweep now => exact settles_checkPendingRequests hbooks hjust (haligned b hb)

end Session

end ReliableService
