import ReliableService.Registration.Answers

/-!
# The registration contract

The deployment of a service is to go like this.  The first `nmr` registrations are all given
the same port, the last of them makes the service available, and any further one is turned away
and leaves no trace (`MeetsContract`).

The code keeps this up to three exceptions (`meetsContract_iff`).  `push_registration` computes
`ready` only in the branch of a service it knows already, so that with a single copy no service
ever becomes available.  The ports come round to `0`, which is `REG_FAIL`.  And the broker dies
when the port of a service that completes is one of its own.
-/

namespace ReliableService

variable {nmr : UInt8} {history : List ServiceType} {service : ServiceType}

/-- Two copies or more: a service completes at its `nmr`-th registration. -/
theorem mem_completed_iff (hnmr : 2 ≤ nmr.toNat) :
    service ∈ completed nmr history ↔ nmr.toNat ≤ history.count service := by
  refine ⟨count_of_mem_completed, ?_⟩
  induction history with
  | nil =>
      rw [List.count_nil]
      omega
  | cons first earlier ih =>
      rw [completed]
      by_cases hself : first = service
      · subst hself
        rw [List.count_cons_self]
        intro hcount
        by_cases hlast : earlier.count first + 1 = nmr.toNat
        · rw [if_pos ⟨by omega, hlast⟩]
          exact List.mem_append_right _ (List.mem_singleton_self _)
        · rw [if_neg fun h => hlast h.2]
          exact ih (by omega)
      · rw [List.count_cons_of_ne hself]
        intro hcount
        split
        · exact List.mem_append_left _ (ih hcount)
        · exact ih hcount

/-- A single copy: no service ever completes. -/
theorem completed_of_single (hnmr : nmr.toNat = 1) : completed nmr history = [] := by
  induction history with
  | nil => rfl
  | cons first earlier ih =>
      rw [completed, if_neg (by omega)]
      exact ih

namespace Broker

variable {b b' : Broker nmr} {portRouter portReg : UInt16} {moments before : List Moment}
  {rm : RegistrationModule} {now : Timespec}

/-- How many copies of a service count as registered and as reliable. -/
def copies (b : Broker nmr) (service : ServiceType) : ℕ × ℕ :=
  match b.db.servicesDb service with
  | none => (0, 0)
  | some record => (record.numCopiesRegistered.toNat, record.numCopiesReliable.toNat)

/-- The registration is answered with this port and counted. -/
structure Admitted (b : Broker nmr) (rm : RegistrationModule) (now : Timespec)
    (port : UInt16) : Prop where
  not_regFail : port ≠ regFail
  answered : (b.getRegistration rm now).sent = [.reg port]
  counted : ∃ b', (b.getRegistration rm now).result = .ok b' ∧
    b'.copies rm.service = b.copies rm.service + (1, 1)

/-- In the run, this registration arrives after `before` and finds the broker in the state
`b`. -/
def Finds (portRouter portReg : UInt16) (moments before : List Moment) (rm : RegistrationModule)
    (now : Timespec) (b : Broker nmr) : Prop :=
  (∃ connected, before ++ [⟨connected, .registration rm now⟩] <+: moments) ∧
    ((init portRouter portReg : Broker nmr).run before).result = .ok b

/-- The registration contract, in one run. -/
structure MeetsContract (nmr : UInt8) (portRouter portReg : UInt16) (moments : List Moment) :
    Prop where
  available : ∀ before (b : Broker nmr), before <+: moments →
    ((init portRouter portReg : Broker nmr).run before).result = .ok b →
    ∀ service, service ∈ b.availableServices ↔
      nmr.toNat ≤ (registrationHistory before).count service
  admitted : ∃ port : ServiceType → UInt16, ∀ before rm now (b : Broker nmr),
    Finds portRouter portReg moments before rm now b →
    (registrationHistory before).count rm.service < nmr.toNat →
    b.Admitted rm now (port rm.service)
  refused : ∀ before rm now (b : Broker nmr),
    Finds portRouter portReg moments before rm now b →
    nmr.toNat ≤ (registrationHistory before).count rm.service →
    b.getRegistration rm now = ⟨[.reg regFail], .ok b⟩

/-- What the contract needs of a registration that arrives after these: more than one copy, a
port that is left, and for the last copy a port that can be bound. -/
structure Servable (nmr : UInt8) (portRouter portReg : UInt16) (history : List ServiceType)
    (service : ServiceType) : Prop where
  several : 2 ≤ nmr.toNat
  port_left : placeOf history service < numPorts
  port_free : history.count service + 1 = nmr.toNat →
    dealerStartPort + UInt16.ofNat (placeOf history service) ∉
      [portRouter, portReg, brokerPongPort]

/-! ## The state a registration finds -/

theorem Finds.isPrefix (h : Finds portRouter portReg moments before rm now b) :
    before <+: moments := by
  obtain ⟨⟨connected, hpre⟩, -⟩ := h
  exact (List.prefix_append ..).trans hpre

theorem Finds.numbered (h : Finds portRouter portReg moments before rm now b) :
    b.Numbered (started (registrationHistory before)) := (numbered_placed_run h.2).1

theorem Finds.deployed (h : Finds portRouter portReg moments before rm now b)
    (hlossless : LosslessRun nmr portRouter portReg moments) :
    b.Deployed (registrationHistory before) := deployed_run hlossless h.isPrefix h.2

/-- The first registration of a service is one of those that arrive. -/
theorem exists_first_finds (hpre : before <+: moments)
    (hrun : ((init portRouter portReg : Broker nmr).run before).result = .ok b)
    (hmem : service ∈ registrationHistory before) :
    ∃ first rm now, ∃ t : Broker nmr, Finds portRouter portReg moments first rm now t ∧
      rm.service = service ∧ service ∉ registrationHistory first ∧ t.Accepts service ∧
      placeOf (registrationHistory first) service =
        (started (registrationHistory before)).idxOf service := by
  obtain ⟨first, connected, rm, now, t, hfirst, ht, -, hrest⟩ := exists_first_reached hrun hmem
  exact ⟨first, rm, now, t, ⟨⟨connected, hfirst.trans hpre⟩, ht⟩, hrest⟩

/-- The broker stays on its two ports. -/
theorem ports_run (hrun : ((init portRouter portReg : Broker nmr).run before).result = .ok b) :
    b.portRouter = portRouter ∧ b.portReg = portReg := by
  refine Outcome.foldlM_invariant
    (P := fun b : Broker nmr => b.portRouter = portRouter ∧ b.portReg = portReg) ?_ ⟨rfl, rfl⟩ hrun
  rintro s t moment - hs ht
  rcases handle_cases_registers ht with ⟨rm, now, hevent⟩ | ⟨-, -, hwrites⟩
  · rw [hevent] at ht
    rw [handle_registration_ok ht]
    split <;> exact hs
  · rw [hwrites]
    exact hs

/-- The counters are read off the history. -/
theorem copies_of_deployed (hnmr : 1 ≤ nmr.toNat) (h : b.Deployed history)
    (hrun : ((init portRouter portReg : Broker nmr).run before).result = .ok b)
    (service : ServiceType) :
    b.copies service = (min (history.count service) nmr.toNat,
      min (history.count service) nmr.toNat) := by
  unfold copies
  cases hrecord : b.db.servicesDb service with
  | none =>
      have hnew := (h.none_iff service).mp hrecord
      rw [List.count_eq_zero_of_not_mem hnew, Nat.zero_min]
  | some record =>
      have hpos : 1 ≤ history.count service := List.count_pos_iff.mpr (h.mem_of_some hrecord)
      have hcount : record.numCopiesRegistered.toNat = min (history.count service) nmr.toNat := by
        rw [(h.recorded service record hrecord).count]
        omega
      dsimp only
      rw [← counters_eq_of_run hrun hrecord, hcount]

/-- The answer to a registration that is accepted. -/
theorem Finds.answer_eq (h : Finds portRouter portReg moments before rm now b)
    (haccepts : b.Accepts rm.service) :
    b.answer rm =
      dealerStartPort + UInt16.ofNat (placeOf (registrationHistory before) rm.service) :=
  ret_of_accepts h.numbered haccepts

/-- A service that completes is not available yet. -/
theorem answer_notMem_dealer (hdeployed : b.Deployed history)
    (hnumbered : b.Numbered (started history))
    (hplaces : ∀ service ∈ history, (started history).idxOf service < numPorts)
    (hmem : rm.service ∈ history) (hcompletes : b.Completes rm) (haccepts : b.Accepts rm.service) :
    b.answer rm ∉ b.dealer := by
  intro hdealer
  rw [ret_of_accepts hnumbered haccepts, placeOf, started_cons_of_mem hmem] at hdealer
  obtain ⟨i, hi, hport⟩ := List.mem_iff_getElem.mp hdealer
  have hlt : i < b.availableServices.length := hdeployed.tabled.dealer_length ▸ hi
  have hservice := List.getElem?_eq_getElem hlt
  obtain ⟨record, hrecord⟩ := Option.ne_none_iff_exists'.mp
    (hdeployed.tabled.registered _ (List.getElem_mem hlt))
  have hsocket := hdeployed.socket i _ record hservice hrecord
  rw [List.getElem?_eq_getElem hi, Option.some.injEq, hport,
    hnumbered.port _ record hrecord] at hsocket
  have hother := hdeployed.mem_of_some hrecord
  have hvalue := congrArg UInt16.toNat hsocket
  rw [toNat_port (hplaces _ hmem), toNat_port (hplaces _ hother)] at hvalue
  have hplace : (started history).idxOf rm.service =
      (started history).idxOf b.availableServices[i] := by omega
  have hsame := (List.idxOf_inj (mem_started.mpr hmem)).mp hplace
  exact hcompletes.2 (hsame ▸ List.getElem_mem hlt)

/-! ## From the condition to the contract -/

section Servable

variable (hlossless : LosslessRun nmr portRouter portReg moments)
  (hservable : ∀ before rm now (b : Broker nmr),
    Finds portRouter portReg moments before rm now b →
      Servable nmr portRouter portReg (registrationHistory before) rm.service)
include hservable

/-- Every service that has registered has a port of its own. -/
theorem idxOf_lt_numPorts (hpre : before <+: moments)
    (hrun : ((init portRouter portReg : Broker nmr).run before).result = .ok b) :
    ∀ service ∈ registrationHistory before,
      (started (registrationHistory before)).idxOf service < numPorts := by
  intro service hmem
  obtain ⟨first, rm, now, t, hfinds, rfl, -, -, hplace⟩ := exists_first_finds hpre hrun hmem
  rw [← hplace]
  exact (hservable first rm now t hfinds).port_left

/-- The port of a registration that completes its service can be bound. -/
theorem not_taken_of_servable (h : Finds portRouter portReg moments before rm now b)
    (hdeployed : b.Deployed (registrationHistory before)) (hcompletes : b.Completes rm)
    (haccepts : b.Accepts rm.service) : ¬ b.Taken (b.answer rm) := by
  obtain ⟨hpos, hlast⟩ := (hdeployed.completes_iff rm).mp hcompletes
  rintro ⟨-, hmem⟩
  have hdealer := answer_notMem_dealer hdeployed h.numbered
    (idxOf_lt_numPorts hservable h.isPrefix h.2) (List.count_pos_iff.mp hpos) hcompletes haccepts
  have hfree := (hservable before rm now b h).port_free hlast
  rw [← h.answer_eq haccepts] at hfree
  obtain ⟨hrouter, hreg⟩ := ports_run h.2
  rw [hrouter, hreg] at hmem
  have hmem : b.answer rm ∈ [portRouter, portReg, brokerPongPort] ++ b.dealer := hmem
  exact (List.mem_append.mp hmem).elim hfree hdealer

include hlossless

theorem admitted_of_servable (h : Finds portRouter portReg moments before rm now b)
    (hmissing : (registrationHistory before).count rm.service < nmr.toNat) :
    b.Admitted rm now
      (dealerStartPort +
        UInt16.ofNat ((started (registrationHistory moments)).idxOf rm.service)) := by
  obtain ⟨hseveral, hport, -⟩ := hservable before rm now b h
  have hdeployed := h.deployed hlossless
  have haccepts := (hdeployed.accepts_iff rm.service).mpr (by omega)
  obtain ⟨connected, hpre⟩ := h.1
  rw [(idxOf_started_of_isPrefix hpre).2, ← h.answer_eq haccepts]
  have hok : ∃ b', b.getRegistration rm now = ⟨[.reg (b.answer rm)], .ok b'⟩ := by
    by_cases hcompletes : b.Completes rm
    · exact ⟨_, getRegistration_of_free hcompletes
        (not_taken_of_servable hservable h hdeployed hcompletes haccepts) now⟩
    · exact ⟨_, getRegistration_of_not_completes hcompletes now⟩
  obtain ⟨b', hb'⟩ := hok
  refine ⟨?_, by rw [hb'], b', by rw [hb'], ?_⟩
  · intro hfail
    have hvalue := congrArg UInt16.toNat hfail
    rw [h.answer_eq haccepts, toNat_port hport, regFail] at hvalue
    simp only [UInt16.reduceToNat] at hvalue
    omega
  · have hresult : (b.getRegistration rm now).result = .ok b' := by rw [hb']
    have hrun' : ((init portRouter portReg : Broker nmr).run
        (before ++ [⟨connected, .registration rm now⟩])).result = .ok b' :=
      Outcome.foldlM_concat_ok.mpr ⟨b, h.2, hresult⟩
    rw [copies_of_deployed (by omega) hdeployed h.2,
      copies_of_deployed (by omega) (hdeployed.registration hresult) hrun', List.count_cons_self]
    simp only [Prod.mk_add_mk, Prod.mk.injEq]
    omega

theorem meetsContract_of_servable (hnmr : 1 ≤ nmr.toNat) :
    MeetsContract nmr portRouter portReg moments where
  available := by
    intro before b hpre hrun service
    have hdeployed := deployed_run hlossless hpre hrun
    rw [hdeployed.available]
    by_cases hseveral : 2 ≤ nmr.toNat
    · exact mem_completed_iff hseveral
    · -- then nothing has registered
      have hnone : registrationHistory before = [] := by
        by_contra hne
        obtain ⟨first, hfirst⟩ := List.exists_mem_of_ne_nil _ hne
        obtain ⟨before', rm, now, t, hfinds, -⟩ := exists_first_finds hpre hrun hfirst
        exact hseveral (hservable before' rm now t hfinds).several
      rw [hnone, List.count_nil]
      refine iff_of_false ?_ (by omega)
      exact List.not_mem_nil
  admitted := by
    refine ⟨fun service => dealerStartPort +
      UInt16.ofNat ((started (registrationHistory moments)).idxOf service), ?_⟩
    intro before rm now b h hmissing
    exact admitted_of_servable hlossless hservable h hmissing
  refused := by
    intro before rm now b h hfull
    have hrefused : ¬ b.Accepts rm.service := by
      rw [(h.deployed hlossless).accepts_iff]
      omega
    exact getRegistration_of_not_accepts hrefused now

end Servable

/-! ## From the contract to the condition -/

section Contract

variable (hcontract : MeetsContract nmr portRouter portReg moments)
include hcontract

/-- While copies are missing, a registration is not given `REG_FAIL`. -/
theorem answer_ne_regFail (h : Finds portRouter portReg moments before rm now b)
    (hmissing : (registrationHistory before).count rm.service < nmr.toNat) :
    b.answer rm ≠ regFail ∧ ∃ b', (b.getRegistration rm now).result = .ok b' := by
  obtain ⟨port, hadmitted⟩ := hcontract.admitted
  obtain ⟨hne, hsent, b', hb', -⟩ := hadmitted before rm now b h hmissing
  rw [sent_of_getRegistration_ok hb', List.singleton_inj, Output.reg.injEq] at hsent
  exact ⟨hsent ▸ hne, b', hb'⟩

/-- The run goes on after a registration. -/
theorem exists_run_registered (h : Finds portRouter portReg moments before rm now b) :
    ∃ after, ∃ b' : Broker nmr, after <+: moments ∧
      ((init portRouter portReg : Broker nmr).run after).result = .ok b' ∧
      registrationHistory after = rm.service :: registrationHistory before := by
  have hok : ∃ b', (b.getRegistration rm now).result = .ok b' := by
    by_cases hmissing : (registrationHistory before).count rm.service < nmr.toNat
    · exact (answer_ne_regFail hcontract h hmissing).2
    · exact ⟨b, by rw [hcontract.refused before rm now b h (not_lt.mp hmissing)]⟩
  obtain ⟨b', hb'⟩ := hok
  obtain ⟨connected, hpre⟩ := h.1
  exact ⟨_, b', hpre, Outcome.foldlM_concat_ok.mpr ⟨b, h.2, hb'⟩, registrationHistory_concat ..⟩

/-- With a single copy the first registration of a service already breaks the contract. -/
theorem several_of_contract (hlossless : LosslessRun nmr portRouter portReg moments)
    (hnmr : 1 ≤ nmr.toNat) (h : Finds portRouter portReg moments before rm now b) :
    2 ≤ nmr.toNat := by
  by_contra hfew
  have hsingle : nmr.toNat = 1 := by omega
  obtain ⟨after, b', hpre, hrun, hhistory⟩ := exists_run_registered hcontract h
  have hmem : rm.service ∈ registrationHistory after := hhistory ▸ List.mem_cons_self
  have havailable := (hcontract.available after b' hpre hrun rm.service).mpr
    (hsingle ▸ List.count_pos_iff.mpr hmem)
  rw [(deployed_run hlossless hpre hrun).available, completed_of_single hsingle] at havailable
  exact List.not_mem_nil havailable

/-- The service whose port would be `0` is not reached. -/
theorem port_left_of_contract (hnmr : 1 ≤ nmr.toNat)
    (h : Finds portRouter portReg moments before rm now b) :
    placeOf (registrationHistory before) rm.service < numPorts := by
  obtain ⟨after, b', hpre, hrun, hhistory⟩ := exists_run_registered hcontract h
  rw [placeOf, ← hhistory]
  by_contra hplace
  have hmem : rm.service ∈ started (registrationHistory after) :=
    mem_started.mpr (hhistory ▸ List.mem_cons_self)
  have hmany : numPorts < (started (registrationHistory after)).length :=
    (not_lt.mp hplace).trans_lt (List.idxOf_lt_length_of_mem hmem)
  -- the first registration of the service at this place has been answered with `0`
  obtain ⟨first, rm', now', t, hfinds, hself, hnew, haccepts, hzero⟩ :=
    exists_first_finds hpre hrun (mem_started.mp (List.getElem_mem hmany))
  rw [(numbered_placed_run hrun).1.nodup.idxOf_getElem numPorts hmany, ← hself] at hzero
  rw [← hself] at hnew haccepts
  have hcount : (registrationHistory first).count rm'.service < nmr.toNat := by
    rw [List.count_eq_zero_of_not_mem hnew]
    exact hnmr
  apply (answer_ne_regFail hcontract hfinds hcount).1
  rw [hfinds.answer_eq haccepts, hzero]
  decide

theorem servable_of_contract (hlossless : LosslessRun nmr portRouter portReg moments)
    (hnmr : 1 ≤ nmr.toNat) (h : Finds portRouter portReg moments before rm now b) :
    Servable nmr portRouter portReg (registrationHistory before) rm.service := by
  have hseveral := several_of_contract hcontract hlossless hnmr h
  refine ⟨hseveral, port_left_of_contract hcontract hnmr h, ?_⟩
  intro hlast hreserved
  have hdeployed := h.deployed hlossless
  have haccepts := (hdeployed.accepts_iff rm.service).mpr (by omega)
  obtain ⟨hne, b', hb'⟩ := answer_ne_regFail hcontract h (by omega)
  have hcompletes := (hdeployed.completes_iff rm).mpr ⟨by omega, hlast⟩
  -- the port of the last copy is bound, so nobody else is on it
  have hfree : ¬ b.Taken (b.answer rm) := by
    intro htaken
    rw [getRegistration_of_taken hcompletes htaken] at hb'
    cases hb'
  refine hfree ⟨hne, ?_⟩
  obtain ⟨hrouter, hreg⟩ := ports_run h.2
  rw [← h.answer_eq haccepts] at hreserved
  rw [hrouter, hreg]
  exact List.mem_append_left b.dealer hreserved

end Contract

/-- **The registration contract** is kept in a run exactly if every registration that arrives
finds two copies or more to be deployed, a port left for its service, and, if it is the last
copy, the port not one of the broker's own. -/
theorem meetsContract_iff (hnmr : 1 ≤ nmr.toNat)
    (hlossless : LosslessRun nmr portRouter portReg moments) :
    MeetsContract nmr portRouter portReg moments ↔
      ∀ before rm now (b : Broker nmr), Finds portRouter portReg moments before rm now b →
        Servable nmr portRouter portReg (registrationHistory before) rm.service :=
  ⟨fun hcontract _ _ _ _ h => servable_of_contract hcontract hlossless hnmr h,
    fun hservable => meetsContract_of_servable hlossless hservable hnmr⟩

/-- Registrations lose no copy. -/
theorem losslessRun_registering (services : List ServiceType) :
    LosslessRun nmr portRouter portReg (registering services) := by
  rintro before moment b hpre - service record - hcheck
  have hmem := hpre.subset (List.mem_append_right before (List.mem_singleton_self moment))
  obtain ⟨first, -, rfl⟩ := List.mem_map.mp hmem
  rw [copyEvents] at hcheck
  split at hcheck <;> simp at hcheck

theorem meetsContract_iff_twoCopies :
    MeetsContract 2 routerPortBroker regPortBroker (registering [0, 1, 0, 0, 1]) ↔
      ∀ before rm now (b : Broker 2),
        Finds routerPortBroker regPortBroker (registering [0, 1, 0, 0, 1]) before rm now b →
          Servable 2 routerPortBroker regPortBroker (registrationHistory before) rm.service :=
  meetsContract_iff (by decide) (losslessRun_registering _)

/-- **A service with a single copy never becomes available.** -/
theorem single_copy_never_available :
    ¬ ∀ (nmr : UInt8) (portRouter portReg : UInt16) (moments : List Moment), 1 ≤ nmr.toNat →
      LosslessRun nmr portRouter portReg moments →
        MeetsContract nmr portRouter portReg moments := by
  intro h
  have hcontract := h 1 routerPortBroker regPortBroker (registering [0]) (by decide)
    (losslessRun_registering _)
  have hrun : ((init routerPortBroker regPortBroker : Broker 1).run (registering [0])).result =
      .ok ((init routerPortBroker regPortBroker).registered ⟨"pippo", 0⟩) := rfl
  have havailable := (hcontract.available _ _ List.prefix_rfl hrun 0).mpr (by decide)
  exact absurd havailable (by decide)

end Broker

end ReliableService
