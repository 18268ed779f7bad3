import ReliableService.Model.Handshake
import ReliableService.Servers.Losses

/-!
# A copy that waits for its registration

`send_reg` says that a registration has been sent and not been answered.  While it is set
there is one message of the handshake somewhere (`Handshake.Sound`): every action moves that
message on, except an end of the broker's process, which destroys it if the process has it.
The copy then waits for an answer nobody will send, and since `send_reg` stays set it does not
ask again.
-/

namespace ReliableService

namespace ServerLoop

variable {service : ServiceType} {l l' : ServerLoop} {i : Iteration}

/-- The registrations among the things sent. -/
def registrations (sent : List ServerAct) : List RegistrationModule :=
  sent.filterMap ServerAct.registration?

/-! ## The two parts of an iteration -/

theorem beginIteration_ok (h : (l.beginIteration service i).result = .ok l') :
    l'.regOk = l.regOk ∧ l'.sendReg = (!l.regOk || l.sendReg) ∧
      registrations (l.beginIteration service i).sent =
        if l.regOk || l.sendReg then [] else [⟨"pippo", service⟩] := by
  have hends : (l.beginIteration service i).Ends []
      (fun l' sent => l'.regOk = l.regOk ∧ l'.sendReg = (!l.regOk || l.sendReg) ∧
        registrations sent = if l.regOk || l.sendReg then [] else [⟨"pippo", service⟩])
      (fun _ => True) := by
    unfold beginIteration
    rw [Outcome.ends_bind]
    refine (ends_serveBroker (P := fun l₁ sent => l₁.regOk = l.regOk ∧ l₁.sendReg = l.sendReg ∧
      registrations sent = []) (fun sm _ _ h => ⟨h.1, h.2.1, ?_⟩) ⟨rfl, rfl, rfl⟩).imp ?_
      fun _ _ => trivial
    · simp [registrations, ServerAct.registration?]
    rintro l₁ sent₁ ⟨hok, hsend, hnone⟩
    have hpong : (pongHealthChecker i).Ends sent₁ (fun _ sent => registrations sent = [])
        (fun _ => True) := by
      unfold pongHealthChecker
      split_ifs
      · simpa [Outcome.Ends, registrations, ServerAct.registration?] using hnone
      · exact (Outcome.ends_pure _).mpr hnone
    rw [Outcome.ends_bind]
    refine hpong.imp ?_ fun _ _ => trivial
    intro _ sent₂ hnone₂
    rw [hok]
    by_cases hregistered : l.regOk = true
    · rw [if_pos hregistered, Outcome.ends_pure]
      simp [hok, hsend, hregistered, hnone₂]
    · by_cases hsent : l.sendReg = true
      · simp [sendRegistration, Outcome.ends_pure, hsend, hregistered, hsent, hnone₂]
      · rw [if_neg hregistered]
        unfold sendRegistration
        rw [hsend, if_neg hsent, Outcome.ends_bind, Outcome.ends_of_ok (Outcome.tell_result _),
          Outcome.ends_pure, Outcome.tell_sent]
        rw [Bool.not_eq_true] at hregistered hsent
        refine ⟨rfl, by simp [hregistered], ?_⟩
        rw [registrations] at hnone₂ ⊢
        simp [hnone₂, hregistered, hsent, ServerAct.registration?]
  exact (Outcome.ends_of_ok h).mp hends

/-- A deadline is no part of the handshake. -/
theorem checkDeadline_ok (h : (l.checkDeadline i).result = .ok l') :
    l'.sendReg = l.sendReg ∧ (l.regOk = false → l'.regOk = false) ∧
      registrations (l.checkDeadline i).sent = [] := by
  unfold checkDeadline at h ⊢
  split_ifs at h ⊢ with hexpired
  · have hok := hexpired.2
    obtain ⟨_, -, h⟩ := Outcome.bind_result_ok.mp h
    dsimp only at h ⊢
    split_ifs at h ⊢ with hdead
    · rw [← Except.ok.inj h]
      exact ⟨rfl, fun _ => rfl, rfl⟩
    · rw [← Except.ok.inj h]
      exact ⟨rfl, fun hfalse => absurd hok (by simp [hfalse]), rfl⟩
  · rw [← Except.ok.inj h]
    exact ⟨rfl, id, rfl⟩

theorem tryRegistration_of_regOk (h : l.regOk = true) : l.tryRegistration service i = pure l :=
  if_pos h

/-- The wait for the answer. -/
theorem tryRegistration_of_sent (hok : l.regOk = false) (hsend : l.sendReg = true) :
    l.tryRegistration service i = match i.answer with
      | none => pure l
      | some port =>
          if 0 < port then do
            Outcome.tell (.registrationOk port)
            pure (l.admitted i.registered)
          else Outcome.fail .exitFailure := by
  unfold tryRegistration registration registerService sendRegistration
  rw [if_neg (by simp [hok]), if_pos hsend, Outcome.pure_bind']
  cases i.answer with
  | none =>
      rw [Outcome.pure_bind']
      rw [← hsend]
  | some port =>
      rw [Outcome.pure_bind']
      rfl

theorem endIteration_ok (hwaiting : l.regOk = false → l.sendReg = true)
    (h : (l.endIteration service i).result = .ok l') :
    l'.sendReg = (l.sendReg && (l.regOk || i.answer.isNone)) ∧
      (l.regOk = false → i.answer = none → l'.regOk = false) ∧
      registrations (l.endIteration service i).sent = [] := by
  unfold endIteration at h ⊢
  cases hok : l.regOk with
  | true =>
      rw [tryRegistration_of_regOk hok, Outcome.pure_bind'] at h ⊢
      obtain ⟨hsend, -, hnone⟩ := checkDeadline_ok h
      exact ⟨by simp [hsend], by simp, hnone⟩
  | false =>
      have hsend := hwaiting hok
      rw [tryRegistration_of_sent hok hsend] at h ⊢
      cases hanswer : i.answer with
      | none =>
          rw [hanswer] at h
          dsimp only at h ⊢
          rw [Outcome.pure_bind'] at h ⊢
          obtain ⟨hsend', hok', hnone⟩ := checkDeadline_ok h
          exact ⟨by simp [hsend'], fun _ _ => hok' hok, hnone⟩
      | some port =>
          rw [hanswer] at h
          dsimp only at h ⊢
          split_ifs at h ⊢ with hport
          · rw [bind_assoc] at h ⊢
            obtain ⟨_, -, h⟩ := Outcome.bind_result_ok.mp h
            rw [Outcome.pure_bind'] at h
            obtain ⟨hsend', -, hnone⟩ := checkDeadline_ok h
            refine ⟨by simp [hsend', admitted], by simp, ?_⟩
            rw [Outcome.bind_sent_of_ok (Outcome.tell_result _), Outcome.pure_bind',
              registrations, List.filterMap_append]
            exact hnone
          · cases h

end ServerLoop

/-- A registration that is handled is answered once. -/
theorem Broker.length_ports_of_ok {nmr : UInt8} {b b' : Broker nmr} {rm : RegistrationModule}
    {now : Timespec} (h : (b.getRegistration rm now).result = .ok b') :
    ((b.getRegistration rm now).sent.filterMap Output.port?).length = 1 := by
  rw [getRegistration_eq] at h ⊢
  obtain ⟨made, hmade, h⟩ := Outcome.bind_result_ok.mp h
  rw [Outcome.bind_sent_of_ok hmade, Outcome.bind_sent_of_ok (Outcome.tell_result _),
    List.filterMap_append, List.length_append]
  have hnone : (if b.Completes rm then (b.registered rm).makeAvailable rm.service
      (b.db.pushRegistration rm b.availableDealerPort).ret now
    else pure (b.registered rm)).sent = [] := by
    split <;> simp
  rw [hnone]
  rfl

namespace Handshake

open ServerLoop

variable {nmr : UInt8} {service : ServiceType} {s t : Handshake nmr} {action : HandshakeAction}

/-- **What is wanted**: a copy that waits for an answer has a message of the handshake under
way. -/
def NotStuck (s : Handshake nmr) : Prop :=
  s.copy.regOk = false → s.copy.sendReg = true →
    s.outgoing ≠ [] ∨ s.delivered ≠ [] ∨ s.answering ≠ [] ∨ s.incoming ≠ []

/-- The process of the broker ends: it is killed, or a handler fails. -/
def endsBroker (s : Handshake nmr) : HandshakeAction → Bool
  | .kill => true
  | .answer now =>
      match s.broker, s.delivered with
      | some b, rm :: _ => (b.getRegistration rm now).result.toOption.isNone
      | _, _ => false
  | .event moment =>
      match s.broker with
      | some b => (b.handle moment.connected moment.event).result.toOption.isNone
      | none => false
  | _ => false

/-- The process ends while it has the copy's registration, or an answer that has not left. -/
def Loses (s : Handshake nmr) (action : HandshakeAction) : Prop :=
  s.endsBroker action = true ∧ (s.delivered ≠ [] ∨ s.answering ≠ [])

instance (s : Handshake nmr) (action : HandshakeAction) : Decidable (s.Loses action) :=
  inferInstanceAs (Decidable (_ ∧ _))

/-! ## The one message -/

/-- The messages of the handshake. -/
def outstanding (s : Handshake nmr) : ℕ :=
  s.outgoing.length + s.delivered.length + s.answering.length + s.incoming.length

structure Sound (s : Handshake nmr) : Prop where
  one : s.outstanding = if s.copy.sendReg then 1 else 0
  unregistered : s.copy.sendReg = true → s.copy.regOk = false
  waiting : s.waiting.isSome → s.copy.regOk = false → s.copy.sendReg = true

theorem sound_init : (init : Handshake nmr).Sound where
  one := rfl
  unregistered h := Bool.noConfusion h
  waiting h := Bool.noConfusion h

theorem Sound.notStuck (h : s.Sound) : s.NotStuck := by
  intro _ hsend
  have hone := h.one
  rw [hsend, if_pos rfl, outstanding] at hone
  by_contra hnone
  push Not at hnone
  obtain ⟨houtgoing, hdelivered, hanswering, hincoming⟩ := hnone
  simp [houtgoing, hdelivered, hanswering, hincoming] at hone

/-- The copy goes on, and the rest is as it was. -/
theorem proceed_eq_some {outcome : ServerEffect ServerLoop} {waiting : Option Iteration}
    (h : s.proceed outcome waiting = some t) :
    ∃ copy, outcome.result = .ok copy ∧ t = { s with
      copy := copy
      waiting := waiting
      outgoing := s.outgoing ++ registrations outcome.sent } := by
  obtain ⟨copy, hcopy, rfl⟩ := Option.map_eq_some_iff.mp h
  exact ⟨copy, Outcome.toOption_eq_some.mp hcopy, rfl⟩

theorem Sound.poll (h : s.Sound) {i : Iteration}
    (hstep : s.proceed (s.copy.beginIteration service i) (some i) = some t) : t.Sound := by
  obtain ⟨copy, hcopy, rfl⟩ := proceed_eq_some hstep
  obtain ⟨hok, hsend, hsent⟩ := beginIteration_ok hcopy
  have hone := h.one
  have hunregistered := h.unregistered
  refine ⟨?_, ?_, ?_⟩
  · simp only [outstanding, hsent, hsend, List.length_append] at hone ⊢
    cases hok' : s.copy.regOk <;> cases hsend' : s.copy.sendReg <;> simp_all
  · show copy.sendReg = true → copy.regOk = false
    rw [hsend, hok]
    cases hok' : s.copy.regOk <;> simp_all
  · show _ → copy.regOk = false → copy.sendReg = true
    rw [hsend, hok]
    intro _ hfalse
    simp [hfalse]

theorem Sound.receive (h : s.Sound) {i : Iteration} (hwaiting : s.waiting = some i)
    {answer : Option UInt16} {incoming : List UInt16}
    (hincoming : s.incoming.length = incoming.length + if answer.isSome then 1 else 0)
    (hanswer : answer.isSome → s.copy.regOk = false)
    (hstep : { s with incoming := incoming }.proceed
      (s.copy.endIteration service { i with answer := answer }) none = some t) : t.Sound := by
  obtain ⟨copy, hcopy, rfl⟩ := proceed_eq_some hstep
  have hflag := h.waiting (by rw [hwaiting]; rfl)
  obtain ⟨hsend, hok, hsent⟩ := endIteration_ok hflag hcopy
  have hone := h.one
  have hunregistered := h.unregistered
  refine ⟨?_, ?_, fun hfalse => Bool.noConfusion hfalse⟩
  · simp only [outstanding, hsent, hsend, List.append_nil] at hone ⊢
    cases answer with
    | none => cases hok' : s.copy.regOk <;> simp_all
    | some port =>
        have hfalse := hanswer rfl
        rw [hflag hfalse, if_pos rfl] at hone
        rw [Option.isSome_some, if_pos rfl] at hincoming
        rw [hflag hfalse, hfalse]
        show _ + incoming.length = 0
        omega
  · show copy.sendReg = true → copy.regOk = false
    rw [hsend]
    intro htrue
    cases answer with
    | none =>
        cases hok' : s.copy.regOk with
        | false => exact hok hok' rfl
        | true => simp_all
    | some port => simp_all

/-- The message moves on, and the copy does nothing. -/
theorem Sound.move (h : s.Sound) (hcopy : t.copy = s.copy) (hwaiting : t.waiting = s.waiting)
    (hsame : t.outstanding = s.outstanding) : t.Sound where
  one := by
    rw [hsame, hcopy]
    exact h.one
  unregistered := by
    rw [hcopy]
    exact h.unregistered
  waiting := by
    rw [hcopy, hwaiting]
    exact h.waiting

/-- The process of the broker ends with nothing of the handshake in it. -/
theorem Sound.brokerEnds (h : s.Sound) (hdelivered : s.delivered = [])
    (hanswering : s.answering = []) : s.brokerEnds.Sound := by
  refine h.move rfl rfl ?_
  rw [outstanding, outstanding, hdelivered, hanswering]
  rfl

/-- **One action moves the message on**, unless it is lost. -/
theorem Sound.step (h : s.Sound) (hkeeps : ¬ s.Loses action)
    (hstep : s.step service action = some t) : t.Sound := by
  have hheld : s.endsBroker action = true → s.delivered = [] ∧ s.answering = [] := by
    intro hends
    by_contra hne
    exact hkeeps ⟨hends, by tauto⟩
  cases action with
  | poll i =>
      simp only [Handshake.step] at hstep
      split_ifs at hstep
      exact h.poll hstep
  | receive arrives =>
      simp only [Handshake.step] at hstep
      split at hstep
      · cases hstep
      rename_i i hwaiting
      by_cases harrives : arrives = true
      · rw [if_pos harrives] at hstep
        split at hstep
        · cases hstep
        rename_i port rest hincoming
        by_cases hok : s.copy.regOk = true
        · rw [if_pos hok] at hstep
          cases hstep
        · rw [if_neg hok] at hstep
          exact h.receive hwaiting (by simp [hincoming]) (fun _ => by simpa using hok) hstep
      · rw [if_neg harrives] at hstep
        exact h.receive hwaiting (by simp) (by simp) hstep
  | deliver =>
      simp only [Handshake.step] at hstep
      split at hstep
      · rename_i b rm rest hbroker houtgoing
        obtain rfl := Option.some.inj hstep
        refine h.move rfl rfl ?_
        simp only [outstanding, houtgoing, List.length_cons, List.length_append, List.length_nil]
        omega
      · cases hstep
  | answer now =>
      simp only [Handshake.step] at hstep
      split at hstep
      · rename_i b rm rest hbroker hdelivered
        obtain rfl := Option.some.inj hstep
        unfold brokerRuns
        cases hresult : (b.getRegistration rm now).result with
        | error fault =>
            have hends : s.endsBroker (.answer now) = true := by
              simp [endsBroker, hbroker, hdelivered, hresult, Except.toOption]
            have := (hheld hends).1
            rw [hdelivered] at this
            cases this
        | ok b' =>
            refine h.move rfl rfl ?_
            simp only [outstanding, hdelivered, List.length_cons, List.length_append,
              Broker.length_ports_of_ok hresult]
            omega
      · cases hstep
  | flush =>
      simp only [Handshake.step] at hstep
      split at hstep
      · cases hstep
      rename_i port rest hanswering
      obtain rfl := Option.some.inj hstep
      refine h.move rfl rfl ?_
      simp only [outstanding, hanswering, List.length_cons, List.length_append, List.length_nil]
      omega
  | event moment =>
      simp only [Handshake.step] at hstep
      split at hstep
      · cases hstep
      rename_i b hbroker
      obtain rfl := Option.some.inj hstep
      unfold brokerRuns
      cases hresult : (b.handle moment.connected moment.event).result with
      | error fault =>
          have hends : s.endsBroker (.event moment) = true := by
            simp [endsBroker, hbroker, hresult, Except.toOption]
          exact h.brokerEnds (hheld hends).1 (hheld hends).2
      | ok b' => exact h.move rfl rfl rfl
  | kill =>
      simp only [Handshake.step] at hstep
      split_ifs at hstep
      obtain rfl := Option.some.inj hstep
      exact h.brokerEnds (hheld rfl).1 (hheld rfl).2
  | restart portRouter portReg =>
      simp only [Handshake.step] at hstep
      split_ifs at hstep
      obtain rfl := Option.some.inj hstep
      exact h.move rfl rfl rfl

/-! ## Losing it -/

/-- An action that ends the process leaves the copy and what is outside of the process. -/
theorem brokerEnds_of_endsBroker (hends : s.endsBroker action = true)
    (hstep : s.step service action = some t) : t = s.brokerEnds := by
  cases action with
  | answer now =>
      simp only [Handshake.step, endsBroker] at hstep hends
      split at hstep
      · rename_i b rm rest hbroker hdelivered
        rw [hbroker, hdelivered] at hends
        obtain rfl := Option.some.inj hstep
        unfold brokerRuns
        cases hresult : (b.getRegistration rm now).result with
        | error fault => rfl
        | ok b' => simp [hresult, Except.toOption] at hends
      · cases hstep
  | event moment =>
      simp only [Handshake.step, endsBroker] at hstep hends
      split at hstep
      · cases hstep
      rename_i b hbroker
      rw [hbroker] at hends
      obtain rfl := Option.some.inj hstep
      unfold brokerRuns
      cases hresult : (b.handle moment.connected moment.event).result with
      | error fault => rfl
      | ok b' => simp [hresult, Except.toOption] at hends
  | kill =>
      simp only [Handshake.step] at hstep
      split_ifs at hstep
      exact (Option.some.inj hstep).symm
  | poll i => exact Bool.noConfusion hends
  | receive arrives => exact Bool.noConfusion hends
  | deliver => exact Bool.noConfusion hends
  | flush => exact Bool.noConfusion hends
  | restart portRouter portReg => exact Bool.noConfusion hends

/-- **A copy whose message is lost is stuck.** -/
theorem Sound.stuck_of_loses (h : s.Sound) (hloses : s.Loses action)
    (hstep : s.step service action = some t) : ¬ t.NotStuck := by
  obtain rfl := brokerEnds_of_endsBroker hloses.1 hstep
  have hheld : 0 < s.delivered.length + s.answering.length := by
    rcases hloses.2 with hne | hne
    · exact Nat.add_pos_left (List.length_pos_of_ne_nil hne) _
    · exact Nat.add_pos_right _ (List.length_pos_of_ne_nil hne)
  have hone := h.one
  rw [outstanding] at hone
  have hsend : s.copy.sendReg = true := by
    by_contra hsend
    rw [if_neg hsend] at hone
    omega
  rw [if_pos hsend] at hone
  intro hnot
  rcases hnot (h.unregistered hsend) hsend with hne | hne | hne | hne
  · have : 0 < s.outgoing.length := List.length_pos_of_ne_nil hne
    omega
  · exact hne rfl
  · exact hne rfl
  · have : 0 < s.incoming.length := List.length_pos_of_ne_nil hne
    omega

/-! ## Runs -/

theorem notStuck_iff_of_sound {actions : List HandshakeAction} (h : s.Sound)
    (hrun : ∃ t, Machine.run (step service) s actions = some t) :
    (∀ before t, before <+: actions → Machine.run (step service) s before = some t → t.NotStuck) ↔
      Machine.Along (step service) (fun s action => ¬ s.Loses action) s actions := by
  induction actions generalizing s with
  | nil =>
      refine iff_of_true ?_ trivial
      intro before t hbefore ht
      rw [List.prefix_nil.mp hbefore] at ht
      rw [← Option.some.inj ht]
      exact h.notStuck
  | cons action actions ih =>
      obtain ⟨last, hlast⟩ := hrun
      obtain ⟨u, hu, hrest⟩ := Machine.run_cons_eq_some.mp hlast
      constructor
      · intro hall
        -- if the first action loses the message, the copy is stuck right after it
        have hkeeps : ¬ s.Loses action := fun hloses => h.stuck_of_loses hloses hu
          (hall [action] u ⟨actions, rfl⟩ (by
            rw [Machine.run_cons_eq_some]
            exact ⟨u, hu, rfl⟩))
        refine ⟨hkeeps, fun u' hu' => ?_⟩
        obtain rfl : u = u' := Option.some.inj (hu.symm.trans hu')
        refine (ih (h.step hkeeps hu) ⟨last, hrest⟩).mp fun before t hbefore ht => ?_
        exact hall (action :: before) t (List.cons_prefix_cons.mpr ⟨rfl, hbefore⟩)
          (Machine.run_cons_eq_some.mpr ⟨u, hu, ht⟩)
      · rintro ⟨hkeeps, halong⟩ before t hbefore ht
        cases before with
        | nil =>
            rw [← Option.some.inj ht]
            exact h.notStuck
        | cons first before =>
            obtain ⟨rfl, hrest'⟩ := List.cons_prefix_cons.mp hbefore
            obtain ⟨u', hu', ht⟩ := Machine.run_cons_eq_some.mp ht
            obtain rfl : u = u' := Option.some.inj (hu.symm.trans hu')
            exact (ih (h.step hkeeps hu) ⟨last, hrest⟩).mpr (halong u hu) before t hrest' ht

/-- The copy is not stuck in any state of the run. -/
def NeverStuck (nmr : UInt8) (service : ServiceType) (actions : List HandshakeAction) : Prop :=
  ∀ before t, before <+: actions →
    Machine.run (step service) (init : Handshake nmr) before = some t → t.NotStuck

/-- **A copy is never stuck in its registration** if and only if the process of the broker never
ends with the copy's registration or an unsent answer in it. -/
theorem notStuck_iff (service : ServiceType) (actions : List HandshakeAction) {s : Handshake nmr}
    (hrun : Machine.run (step service) init actions = some s) :
    NeverStuck nmr service actions ↔
      Machine.Along (step service) (fun s action => ¬ s.Loses action) (init : Handshake nmr)
        actions :=
  notStuck_iff_of_sound sound_init ⟨s, hrun⟩

/-- The broker is killed before the request has arrived, and started again. -/
def queuedRun : List HandshakeAction :=
  [.restart 5559 5555, .kill, .poll (ServerLoop.waiting 0), .receive false, .restart 5559 5555,
    .deliver, .answer ⟨1, 0⟩, .flush, .poll (ServerLoop.waiting 1), .receive true]

theorem notStuck_iff_queuedRun : NeverStuck 2 0 queuedRun := by
  have hrun : (Machine.run (step 0) (init : Handshake 2) queuedRun).isSome := by decide +kernel
  exact (notStuck_iff 0 queuedRun (Option.some_get hrun).symm).mpr (by decide +kernel)

/-- The broker is killed with the request in it, and started again. -/
def lostRun : List HandshakeAction :=
  [.restart 5559 5555, .poll (ServerLoop.waiting 0), .deliver, .kill, .receive false,
    .restart 5559 5555]

/-- **A broker that is killed with a registration in it leaves the copy stuck.** -/
theorem stuck_after_kill :
    ¬ ∀ (nmr : UInt8) (service : ServiceType) (actions : List HandshakeAction) (s : Handshake nmr),
      Machine.run (step service) init actions = some s → s.NotStuck := by
  intro h
  have hrun : (Machine.run (step 0) (init : Handshake 2) lostRun).map
      (fun s => ((s.copy.regOk, s.copy.sendReg),
        s.outgoing, s.delivered, s.answering, s.incoming)) =
        some ((false, true), [], [], [], []) := by decide +kernel
  obtain ⟨s, hs, hleft⟩ := Option.map_eq_some_iff.mp hrun
  simp only [Prod.mk.injEq] at hleft
  obtain ⟨⟨hok, hsend⟩, houtgoing, hdelivered, hanswering, hincoming⟩ := hleft
  have hnot := h 2 0 lostRun s hs hok hsend
  rw [houtgoing, hdelivered, hanswering, hincoming] at hnot
  simp at hnot

end Handshake

end ReliableService
