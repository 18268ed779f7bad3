import ReliableService.Registration.Tables
import ReliableService.Requests.Decisions

/-!
# The sweep over the pending requests

`Broker.Sweeps` is what one call of `check_pending_requests` is for: every expired record of
an available service is answered once and removed, and nothing else changes.

The loop reads the records of a service and deletes by a number made from the position of
that service.  Where the two agree for every expired record, the sweep does what it is for.
Where they differ for one, that record stays: its client has no record under any other
service, so no other deletion of the sweep can hit it.
-/

namespace ReliableService

open ServiceRecord Majority

variable {nmr : UInt8} {fit : ℕ → List Int32 → Prop} {l : Ledger} {b : Broker nmr} {c : ClientId}
  {now : Timespec}

/-! ## Deletion from the middle -/

namespace ServiceRecord

/-- `deleteLoop` takes out a client's only record and leaves the others in place. -/
theorem deleteLoop_append_cons {before after : List RequestRecord} {record : RequestRecord}
    (hbefore : ofClient record.clientId before = [])
    (hafter : ofClient record.clientId after = []) :
    deleteLoop record.clientId (before ++ record :: after) = before ++ after := by
  induction before with
  | nil =>
      cases after with
      | nil => simp [deleteLoop]
      | cons next rest =>
          rw [ofClient_cons] at hafter
          split at hafter
          · simp at hafter
          · rw [List.nil_append, deleteLoop, if_pos rfl, deleteLoop_of_ofClient_nil hafter]
            rfl
  | cons first before ih =>
      rw [ofClient_cons] at hbefore
      split at hbefore
      · simp at hbefore
      · rename_i hfirst
        rw [List.cons_append, deleteLoop.eq_def]
        dsimp only
        rw [if_neg hfirst, ih hbefore, List.cons_append]

end ServiceRecord

/-! ## What a sweep is for -/

/-- The deadline is before `now`. -/
def RequestRecord.expired (now : Timespec) (record : RequestRecord) : Bool :=
  timeCmp now record.timeout = 1

/-- The output is the response a record is due when it expires. -/
def Answers (nmr : UInt8) (record : RequestRecord) (output : Output) : Prop :=
  ∃ response, output = .router record.clientId response ∧
    ((∃ v, nmr.toNat / 2 < record.results.count v ∧ response = ⟨.serviceAvailable, some v⟩) ∨
      (∀ v, ¬ nmr.toNat / 2 < record.results.count v) ∧
        response.serviceStatus = .serviceNotReliable)

namespace Broker

/-- The records that a sweep is to answer. -/
def expiredRecords (b : Broker nmr) (now : Timespec) : List RequestRecord :=
  b.availableServices.flatMap fun service =>
    (b.db.pending service).filter (RequestRecord.expired now)

/-- The records that a sweep is to leave. -/
def pendingAfter (b : Broker nmr) (now : Timespec) (service : ServiceType) : List RequestRecord :=
  if service ∈ b.availableServices then
    (b.db.pending service).filter fun record => !record.expired now
  else b.db.pending service

/-- **What one sweep does.** -/
structure Sweeps (b : Broker nmr) (now : Timespec) : Prop where
  answered : List.Forall₂ (Answers nmr) (b.expiredRecords now)
    (checkPendingRequests everyone b now).sent
  removed : ∃ b', (checkPendingRequests everyone b now).result = .ok b' ∧
    ∀ service, b'.db.pending service = b.pendingAfter now service

/-! ## Aligned sweeps -/

/-- The vote over few results answers the record. -/
theorem answers_of_vote {record : RequestRecord} (hlength : record.results.length ≤ nmr.toNat)
    (before : Option Int32) :
    ∃ ret result, (vote nmr record.results before).result = .ok (ret, result) ∧
      Answers nmr record (.router record.clientId
        ⟨if 0 ≤ ret then .serviceAvailable else .serviceNotReliable, result⟩) := by
  by_cases hsome : ∃ v, Wins (nmr.toNat / 2) v record.results
  · obtain ⟨v, hv⟩ := hsome
    obtain ⟨ret, hret, hvote⟩ := vote_of_wins hlength hv before
    refine ⟨ret, some v, by rw [hvote]; rfl, _, rfl, Or.inl ⟨v, hv, ?_⟩⟩
    rw [if_pos hret]
  · have hnone := not_exists.mp hsome
    have hret : ¬ (0 : Int8) ≤ -1 := by decide
    refine ⟨-1, before, by rw [vote_of_no_winner hlength hnone]; rfl, _, rfl,
      Or.inr ⟨hnone, ?_⟩⟩
    show (if (0 : Int8) ≤ -1 then ServiceStatus.serviceAvailable else .serviceNotReliable) = _
    exact if_neg hret

/-- One record of a sweep, at the position that is the number of its service. -/
theorem ends_sweepRecord_aligned {service : ServiceType} {i : ℕ}
    {state : Option Int32 × ServiceDatabase nmr} (sent : List Output)
    {before after : List RequestRecord} {record : RequestRecord}
    (hpending : state.2.pending service = before ++ record :: after)
    (hsingle : (ofClient record.clientId (state.2.pending service)).length ≤ 1)
    (hshort : record.results.length ≤ nmr.toNat)
    (haligned : record.expired now → UInt32.ofNat i = service) :
    (sweepRecord everyone now i state record).Ends sent
      (fun state' sent' => SameCopies state.2 state'.2 ∧
        state'.2.pending service =
          before ++ [record].filter (fun r => !r.expired now) ++ after ∧
        (∀ other, other ≠ service → state'.2.pending other = state.2.pending other) ∧
        ∃ more, sent' = sent ++ more ∧
          List.Forall₂ (Answers nmr) ([record].filter (RequestRecord.expired now)) more)
      (fun _ => False) := by
  unfold sweepRecord
  by_cases hexpired : record.expired now
  · have hcmp : timeCmp now record.timeout = 1 := of_decide_eq_true hexpired
    rw [if_pos hcmp, haligned hexpired]
    obtain ⟨ret, result, hvote, hanswers⟩ := answers_of_vote hshort state.1
    obtain ⟨stored, hstored⟩ : ∃ stored, state.2.servicesDb service = some stored := by
      rw [← Option.ne_none_iff_exists']
      intro hnone
      simp [ServiceDatabase.pending_of_none hnone] at hpending
    rw [ServiceDatabase.pending_of_some hstored] at hpending hsingle
    -- nobody else's record is in the way of the deletion
    rw [hpending, ofClient_append, ofClient_cons, if_pos rfl, List.length_append,
      List.length_cons] at hsingle
    have hdelete : deleteLoop record.clientId stored.requestRecords = before ++ after := by
      rw [hpending]
      exact deleteLoop_append_cons (List.eq_nil_of_length_eq_zero (by omega))
        (List.eq_nil_of_length_eq_zero (by omega))
    rw [Outcome.ends_bind, Outcome.ends_of_ok hvote, vote_sent, List.append_nil]
    dsimp only
    rw [sendRouter_everyone, ServiceDatabase.deleteRequest_of_some hstored, hdelete,
      Outcome.pure_bind', Outcome.ends_bind, Outcome.ends_of_ok (Outcome.tell_result _),
      Outcome.ends_pure, Outcome.tell_sent]
    refine ⟨SameCopies.insert hstored rfl, ?_, ?_, _, rfl, ?_⟩
    · rw [ServiceDatabase.pending_insert_self]
      simp [hexpired]
    · intro other hother
      exact ServiceDatabase.pending_insert_of_ne _ hother _
    · simpa [hexpired] using hanswers
  · have hcmp : ¬ timeCmp now record.timeout = 1 := fun h => hexpired (decide_eq_true h)
    rw [if_neg hcmp, Outcome.ends_pure]
    refine ⟨SameCopies.refl _, ?_, fun _ _ => rfl, [], (List.append_nil _).symm, ?_⟩
    · simp [hexpired, hpending]
    · simp [hexpired]

/-- One service of a sweep. -/
theorem ends_sweepService_aligned (now : Timespec) {entry : ServiceType × ℕ}
    {state : Option Int32 × ServiceDatabase nmr} (sent : List Output)
    (hregistered : state.2.servicesDb entry.1 ≠ none)
    (hsingle : ∀ c, (ofClient c (state.2.pending entry.1)).length ≤ 1)
    (hshort : ∀ record ∈ state.2.pending entry.1, record.results.length ≤ nmr.toNat)
    (haligned : ∀ record ∈ state.2.pending entry.1, record.expired now →
      UInt32.ofNat entry.2 = entry.1) :
    (sweepService everyone now state entry).Ends sent
      (fun state' sent' => SameCopies state.2 state'.2 ∧
        state'.2.pending entry.1 =
          (state.2.pending entry.1).filter (fun r => !r.expired now) ∧
        (∀ other, other ≠ entry.1 → state'.2.pending other = state.2.pending other) ∧
        ∃ more, sent' = sent ++ more ∧ List.Forall₂ (Answers nmr)
          ((state.2.pending entry.1).filter (RequestRecord.expired now)) more)
      (fun _ => False) := by
  obtain ⟨stored, hstored⟩ := Option.ne_none_iff_exists'.mp hregistered
  unfold sweepService
  rw [ServiceDatabase.getPendingRequests_of_some hstored, Outcome.pure_bind',
    ← ServiceDatabase.pending_of_some hstored]
  -- the records before the current one are dealt with, those after it are as they were
  refine Outcome.Ends.imp (Outcome.ends_foldlM
    (P := fun rest t sent' => SameCopies state.2 t.2 ∧
      (∀ other, other ≠ entry.1 → t.2.pending other = state.2.pending other) ∧
      ∃ done, state.2.pending entry.1 = done ++ rest ∧
        t.2.pending entry.1 = done.filter (fun r => !r.expired now) ++ rest ∧
        ∃ more, sent' = sent ++ more ∧
          List.Forall₂ (Answers nmr) (done.filter (RequestRecord.expired now)) more) ?_
    ⟨SameCopies.refl _, fun _ _ => rfl, [], rfl, rfl, [], (List.append_nil _).symm,
      List.Forall₂.nil⟩) ?_ fun _ h => h
  · rintro record rest t sent' ⟨hsame, hother, done, hdone, hpending, more, rfl, hanswers⟩
    have hmem : record ∈ state.2.pending entry.1 := by
      rw [hdone]
      exact List.mem_append_right _ List.mem_cons_self
    have hsub : (t.2.pending entry.1).Sublist (state.2.pending entry.1) := by
      rw [hpending, hdone]
      exact List.filter_sublist.append_right _
    have hone := ends_sweepRecord_aligned (sent ++ more) hpending
      (((hsub.filter _).length_le).trans (hsingle record.clientId)) (hshort record hmem)
      (haligned record hmem)
    refine hone.imp ?_ fun _ h => h
    rintro t' sent'' ⟨hsame', hpending', hother', more', rfl, hanswers'⟩
    refine ⟨hsame.trans hsame', fun other hne => (hother' other hne).trans (hother other hne),
      done ++ [record], by simpa using hdone, ?_, more ++ more', List.append_assoc .., ?_⟩
    · rw [hpending', List.filter_append]
    · rw [List.filter_append]
      exact List.rel_append hanswers hanswers'
  · rintro t sent' ⟨hsame, hother, done, hdone, hpending, more, hsent, hanswers⟩
    rw [List.append_nil] at hdone hpending
    rw [← hdone] at hpending hanswers
    exact ⟨hsame, hpending, hother, more, hsent, hanswers⟩

/-- The services before `rest` are dealt with, and the others are as they were. -/
structure Swept (b : Broker nmr) (now : Timespec) (rest : List (ServiceType × ℕ))
    (state : Option Int32 × ServiceDatabase nmr) (sent : List Output) : Prop where
  same : SameCopies b.db state.2
  dealt : ∃ done, b.availableServices.zipIdx = done ++ rest ∧
    (∀ service, state.2.pending service = if service ∈ done.map Prod.fst then
      (b.db.pending service).filter (fun r => !r.expired now) else b.db.pending service) ∧
    List.Forall₂ (Answers nmr) ((done.map Prod.fst).flatMap fun service =>
      (b.db.pending service).filter (RequestRecord.expired now)) sent

variable {entry : ServiceType × ℕ} {rest : List (ServiceType × ℕ)}
  {state : Option Int32 × ServiceDatabase nmr} {sent : List Output}

/-- No service is dealt with twice. -/
theorem notMem_of_zipIdx (htabled : b.Tabled) {done : List (ServiceType × ℕ)}
    (hdone : b.availableServices.zipIdx = done ++ entry :: rest) : entry.1 ∉ done.map Prod.fst := by
  have hnodup := htabled.nodup
  rw [← List.zipIdx_map_fst 0 b.availableServices, hdone, List.map_append, List.map_cons] at hnodup
  have hdisjoint := List.disjoint_of_nodup_append hnodup
  exact fun hmem => hdisjoint hmem List.mem_cons_self

/-- **One service is dealt with.** -/
theorem Swept.step (h : Swept b now (entry :: rest) state sent) (htabled : b.Tabled)
    (hkept : Kept fit l b.db)
    (hshort : ∀ service ∈ b.availableServices, ∀ record ∈ b.db.pending service,
      record.results.length ≤ nmr.toNat)
    (haligned : Aligned b.db now b.availableServices.zipIdx) :
    (sweepService everyone now state entry).Ends sent (Swept b now rest) (fun _ => False) := by
  obtain ⟨hsame, done, hdone, hpending, hanswers⟩ := h
  have hentry : entry ∈ b.availableServices.zipIdx := by
    rw [hdone]
    exact List.mem_append_right _ List.mem_cons_self
  have havailable := List.fst_mem_of_mem_zipIdx hentry
  have hstill : state.2.pending entry.1 = b.db.pending entry.1 := by
    rw [hpending, if_neg (notMem_of_zipIdx htabled hdone)]
  have hone := ends_sweepService_aligned now sent
    (mt hsame.eq_none_iff.mp (htabled.registered entry.1 havailable))
    (by rw [hstill]; exact hkept.single entry.1)
    (by rw [hstill]; exact hshort entry.1 havailable)
    (by
      rw [hstill]
      exact fun record hmem hexpired =>
        haligned entry hentry record hmem (of_decide_eq_true hexpired))
  rw [hstill] at hone
  refine hone.imp ?_ fun _ h => h
  rintro state' sent' ⟨hsame', hself, hother, more, rfl, hanswers'⟩
  refine ⟨hsame.trans hsame', done ++ [entry], by simpa using hdone, ?_, ?_⟩
  · intro service
    by_cases hservice : service = entry.1
    · rw [hservice, hself, if_pos (by simp)]
    · rw [hother service hservice, hpending service]
      have hmem : service ∈ (done ++ [entry]).map Prod.fst ↔ service ∈ done.map Prod.fst := by
        rw [List.map_append, List.mem_append, List.map_singleton, List.mem_singleton,
          or_iff_left hservice]
      simp only [hmem]
  · rw [List.map_append, List.flatMap_append]
    exact List.rel_append hanswers (by simpa using hanswers')

/-- **A sweep that is aligned does what it is for.** -/
theorem sweeps_of_aligned (htabled : b.Tabled) (hkept : Kept fit l b.db)
    (hshort : ∀ service ∈ b.availableServices, ∀ record ∈ b.db.pending service,
      record.results.length ≤ nmr.toNat)
    (haligned : Aligned b.db now b.availableServices.zipIdx) : b.Sweeps now := by
  have hends : (checkPendingRequests everyone b now).Ends []
      (fun b' sent => List.Forall₂ (Answers nmr) (b.expiredRecords now) sent ∧
        ∀ service, b'.db.pending service = b.pendingAfter now service) (fun _ => False) := by
    unfold checkPendingRequests
    rw [Outcome.ends_bind]
    refine Outcome.Ends.imp (Outcome.ends_foldlM (P := Swept b now) (fun entry rest state sent h =>
      h.step htabled hkept hshort haligned)
      ⟨SameCopies.refl _, [], rfl, fun _ => rfl, List.Forall₂.nil⟩) ?_ fun _ h => h
    rintro state sent ⟨-, done, hdone, hpending, hanswers⟩
    have hfst : done.map Prod.fst = b.availableServices := by
      rw [← List.zipIdx_map_fst 0 b.availableServices, hdone, List.append_nil]
    rw [hfst] at hpending hanswers
    exact (Outcome.ends_pure _).mpr ⟨hanswers, hpending⟩
  cases hresult : (checkPendingRequests everyone b now).result with
  | error fault => exact ((Outcome.ends_of_error hresult).mp hends).elim
  | ok b' =>
      obtain ⟨hanswers, hpending⟩ := (Outcome.ends_of_ok hresult).mp hends
      exact ⟨hanswers, b', hresult, hpending⟩

/-! ## Sweeps that are not aligned -/

theorem pending_sweepRecord_of_ne {i : ℕ} {service : ServiceType}
    {state state' : Option Int32 × ServiceDatabase nmr} {record : RequestRecord}
    (hne : UInt32.ofNat i ≠ service)
    (h : (sweepRecord everyone now i state record).result = .ok state') :
    state'.2.pending service = state.2.pending service := by
  unfold sweepRecord at h
  split at h
  · obtain ⟨⟨ret, result⟩, -, h⟩ := Outcome.bind_result_ok.mp h
    obtain ⟨-, -, h⟩ := Outcome.bind_result_ok.mp h
    obtain ⟨db, hdelete, h⟩ := Outcome.bind_result_ok.mp h
    rw [← Except.ok.inj h]
    cases hstored : state.2.servicesDb (UInt32.ofNat i) with
    | none =>
        rw [ServiceDatabase.deleteRequest, ServiceDatabase.lookup_of_none hstored] at hdelete
        cases hdelete
    | some stored =>
        rw [ServiceDatabase.deleteRequest_of_some hstored] at hdelete
        rw [← Except.ok.inj hdelete]
        exact ServiceDatabase.pending_insert_of_ne _ (Ne.symm hne) _
  · rw [← Except.ok.inj h]

/-- A sweep deletes the records of the clients it answers and of nobody else. -/
theorem ofClient_sweepRecord_of_ne {i : ℕ} (service : ServiceType)
    {state state' : Option Int32 × ServiceDatabase nmr} {record : RequestRecord}
    (hne : c ≠ record.clientId)
    (h : (sweepRecord everyone now i state record).result = .ok state') :
    ofClient c (state'.2.pending service) = ofClient c (state.2.pending service) := by
  by_cases hservice : UInt32.ofNat i = service
  · unfold sweepRecord at h
    split at h
    · obtain ⟨⟨ret, result⟩, -, h⟩ := Outcome.bind_result_ok.mp h
      obtain ⟨-, -, h⟩ := Outcome.bind_result_ok.mp h
      obtain ⟨db, hdelete, h⟩ := Outcome.bind_result_ok.mp h
      rw [← Except.ok.inj h]
      rw [hservice] at hdelete
      cases hstored : state.2.servicesDb service with
      | none =>
          rw [ServiceDatabase.deleteRequest, ServiceDatabase.lookup_of_none hstored] at hdelete
          cases hdelete
      | some stored =>
          rw [ServiceDatabase.deleteRequest_of_some hstored] at hdelete
          rw [← Except.ok.inj hdelete, ServiceDatabase.pending_insert_self,
            ServiceDatabase.pending_of_some hstored]
          exact ofClient_deleteLoop_of_ne hne
    · rw [← Except.ok.inj h]
  · rw [pending_sweepRecord_of_ne hservice h]

/-- **A record that is expired and not aligned stays.** -/
theorem mem_of_misaligned (htabled : b.Tabled) (hkept : Kept fit l b.db) {b' : Broker nmr}
    {entry : ServiceType × ℕ} (hentry : entry ∈ b.availableServices.zipIdx)
    (hne : UInt32.ofNat entry.2 ≠ entry.1) {record : RequestRecord}
    (hmem : record ∈ b.db.pending entry.1)
    (hb' : (checkPendingRequests everyone b now).result = .ok b') :
    record ∈ b'.db.pending entry.1 := by
  obtain ⟨t, hsweep, hb'⟩ := Outcome.bind_result_ok.mp hb'
  rw [← Except.ok.inj hb']
  refine (Outcome.foldlM_invariant
    (P := fun t => record ∈ t.2.pending entry.1 ∧
      ∀ service, (t.2.pending service).Sublist (b.db.pending service)) ?_
    ⟨hmem, fun _ => List.Sublist.refl _⟩ hsweep).1
  intro t t' entry' hentry' ⟨hin, hsub⟩ ht'
  refine ⟨?_, fun service => (pending_sublist_of_sweepService ht' service).trans (hsub service)⟩
  obtain ⟨records, hrecords, hloop⟩ := Outcome.bind_result_ok.mp ht'
  have hcopied : ∀ r ∈ records, r ∈ b.db.pending entry'.1 := by
    intro r hr
    cases hstored : t.2.servicesDb entry'.1 with
    | none =>
        rw [ServiceDatabase.getPendingRequests, ServiceDatabase.lookup_of_none hstored] at hrecords
        cases hrecords
    | some stored =>
        rw [ServiceDatabase.getPendingRequests_of_some hstored] at hrecords
        apply (hsub entry'.1).subset
        rw [ServiceDatabase.pending_of_some hstored, Except.ok.inj hrecords]
        exact hr
  refine Outcome.foldlM_invariant (P := fun t => record ∈ t.2.pending entry.1) ?_ hin hloop
  intro u u' r hr hu hu'
  by_cases hservice : entry'.1 = entry.1
  · -- its own service, at its own position
    have hsame : entry' = entry := by
      have hnodup : (b.availableServices.zipIdx.map Prod.fst).Nodup := by
        rw [List.zipIdx_map_fst]
        exact htabled.nodup
      exact List.inj_on_of_nodup_map hnodup hentry' hentry hservice
    rw [hsame] at hu'
    rw [pending_sweepRecord_of_ne hne hu']
    exact hu
  · -- another service: another client
    have hclient : record.clientId ≠ r.clientId := fun heq =>
      hservice (hkept.service_eq (hcopied r hr) hmem heq.symm)
    have hkeep := ofClient_sweepRecord_of_ne entry.1 hclient hu'
    have hof : record ∈ ofClient record.clientId (u'.2.pending entry.1) := by
      rw [hkeep]
      exact mem_ofClient.mpr ⟨hu, rfl⟩
    exact (mem_ofClient.mp hof).1

theorem aligned_of_sweeps (htabled : b.Tabled) (hkept : Kept fit l b.db) (hsweeps : b.Sweeps now) :
    Aligned b.db now b.availableServices.zipIdx := by
  intro entry hentry record hmem hexpired
  by_contra hne
  obtain ⟨b', hb', hpending⟩ := hsweeps.removed
  have hstays := mem_of_misaligned htabled hkept hentry hne hmem hb'
  rw [hpending, pendingAfter, if_pos (List.fst_mem_of_mem_zipIdx hentry), List.mem_filter] at hstays
  have hexpired' : record.expired now = true := decide_eq_true hexpired
  rw [hexpired'] at hstays
  exact Bool.noConfusion hstays.2

/-! ## No copies, no services -/

/-- With no copies to wait for, no service ever becomes available. -/
def Vacant (b : Broker nmr) : Prop := nmr.toNat = 0 → b.availableServices = []

theorem Vacant.handle (h : b.Vacant) {b' : Broker nmr} {event : Event}
    (hb' : (b.handle everyone event).result = .ok b') : b'.Vacant := by
  intro hnmr
  rcases handle_cases hb' with ⟨rm, now, rfl⟩ | ⟨hsame, -⟩
  · rw [handle_registration_ok hb', if_neg]
    · exact h hnmr
    · rintro ⟨hready, -⟩
      unfold ServiceDatabase.pushRegistration at hready
      split at hready
      · exact Bool.noConfusion hready
      · rename_i record _
        have hregister : record.register = none := by
          unfold ServiceRecord.register
          rw [if_neg]
          rw [UInt8.lt_iff_toNat_lt, hnmr]
          exact Nat.not_lt_zero _
        rw [hregister] at hready
        exact Bool.noConfusion hready
  · rw [hsame.available_eq, h hnmr]

end Broker

/-! ## Runs -/

namespace Session

variable {s : Session nmr}

theorem tables_of_run {portRouter portReg : UInt16} {events : List Event}
    (haligned : Machine.Along step SweepAligned (init portRouter portReg : Session nmr) events)
    (hrun : Machine.run step (init portRouter portReg) events = some s) :
    ∀ b ∈ s.broker, b.Tabled ∧ b.Vacant := by
  refine Machine.run_invariant (P := fun s => ∀ b ∈ s.broker, b.Tabled ∧ b.Vacant) ?_ ?_ haligned
    hrun
  · intro s event s' h _ hstep b' hb'
    obtain ⟨b, hb, -, rfl⟩ := step_eq_some hstep
    have hresult := Outcome.toOption_eq_some.mp hb'
    exact ⟨(h b hb).1.handle hresult, (h b hb).2.handle hresult⟩
  · intro b hb
    obtain rfl := Option.some.inj (Option.mem_def.mp hb)
    exact ⟨Broker.tabled_init portRouter portReg, fun _ => rfl⟩

/-- **When a sweep does what it is for.**  In every state that a run with aligned sweeps
reaches, the next sweep does so if and only if it is aligned too. -/
theorem sweeps_iff_aligned (portRouter portReg : UInt16) (events : List Event)
    (haligned : Machine.Along step SweepAligned (init portRouter portReg : Session nmr) events)
    {s : Session nmr} (hrun : Machine.run step (init portRouter portReg) events = some s)
    {b : Broker nmr} (hb : s.broker = some b) (now : Timespec) :
    b.Sweeps now ↔ Aligned b.db now b.availableServices.zipIdx := by
  obtain ⟨htabled, hvacant⟩ := tables_of_run haligned hrun b hb
  have hbooks := orderly_of_aligned haligned hrun
  refine ⟨Broker.aligned_of_sweeps htabled (hbooks.2 b hb), ?_⟩
  apply Broker.sweeps_of_aligned htabled (hbooks.2 b hb)
  intro service hservice record hmem
  by_cases hnmr : nmr.toNat = 0
  · rw [hvacant hnmr] at hservice
    exact absurd hservice List.not_mem_nil
  · have hopen := open_of_aligned (Nat.one_le_iff_ne_zero.mpr hnmr) haligned hrun
    exact ((hopen b hb).undecided service record hmem).1.le

/-- Service `0` has an expired record with one result, and another one that is not. -/
def dueRun : List Event :=
  [.registration ⟨"pippo", 0⟩ ⟨0, 0⟩, .registration ⟨"pippo", 0⟩ ⟨0, 0⟩,
    .request 7 ⟨0, Vector.replicate paramSize 0⟩ ⟨0, 0⟩ ⟨0, 0⟩,
    .response 0 ⟨false, false, 1, 0, 0⟩ 7,
    .request 8 ⟨0, Vector.replicate paramSize 0⟩ ⟨9, 0⟩ ⟨9, 0⟩]

theorem sweeps_iff_aligned_dueRun :
    ∃ s b, Machine.run step (init 5559 5555 : Session 2) dueRun = some s ∧ s.broker = some b ∧
      ∀ now, b.Sweeps now ↔ Aligned b.db now b.availableServices.zipIdx := by
  have hrun : ((Machine.run step (init 5559 5555 : Session 2) dueRun).bind
      Session.broker).isSome := by decide +kernel
  obtain ⟨b, hbind⟩ := Option.isSome_iff_exists.mp hrun
  obtain ⟨s, hs, hb⟩ := Option.bind_eq_some_iff.mp hbind
  exact ⟨s, b, hs, hb,
    sweeps_iff_aligned 5559 5555 dueRun (by decide +kernel) hs hb⟩

/-- **A sweep leaves the expired record of a service** that is not at the position of its
number. -/
theorem expired_record_stays :
    ¬ ∀ (nmr : UInt8) (portRouter portReg : UInt16) (events : List Event) (s : Session nmr)
      (b : Broker nmr), Machine.run step (init portRouter portReg) events = some s →
        s.broker = some b → ∀ now, b.Sweeps now := by
  intro h
  have hrecords : ((Machine.run step (init 5559 5555 : Session 2) (shiftedRun.take 4)).bind
      Session.broker).map (fun b => (b.pendingAfter ⟨10, 0⟩ 1,
        ((Broker.checkPendingRequests Broker.everyone b ⟨10, 0⟩).result.toOption.map
          fun b' => (b'.db.pending 1).length))) = some ([], some 1) := by decide +kernel
  obtain ⟨b, hbind, hleft⟩ := Option.map_eq_some_iff.mp hrecords
  obtain ⟨s, hrun, hb⟩ := Option.bind_eq_some_iff.mp hbind
  obtain ⟨b', hb', hpending⟩ := (h 2 5559 5555 (shiftedRun.take 4) s b hrun hb ⟨10, 0⟩).removed
  rw [Prod.mk.injEq, hb'] at hleft
  have hlength : (b'.db.pending 1).length = 1 := Option.some.inj hleft.2
  rw [hpending, hleft.1] at hlength
  exact absurd hlength (by decide)

end Session

end ReliableService
