import ReliableService.Lib.Machine
import ReliableService.Model.ServerLoop

/-!
# Iterations as small steps

Every change an iteration makes to a copy goes with one thing it sends or logs.  `Acts` is
that small step, and `ends_iterate` and `ends_run` are the rules by which an invariant of
small steps, and of everything sent so far, holds along iterations and runs, also of those
that end in `exit`.
-/

/-- A place in a log that has grown by one entry is the new one, or was there before. -/
theorem List.concat_eq_append_cons {α : Type*} {log before after : List α} {x y : α}
    (h : log ++ [x] = before ++ y :: after) :
    (before = log ∧ y = x ∧ after = []) ∨ ∃ rest, after = rest ++ [x] ∧
      log = before ++ y :: rest := by
  rcases List.eq_nil_or_concat after with rfl | ⟨rest, last, rfl⟩
  · obtain ⟨rfl, hlast⟩ := List.append_inj' h rfl
    exact .inl ⟨rfl, (List.singleton_inj.mp hlast).symm, rfl⟩
  · rw [List.concat_eq_append, ← List.cons_append, ← List.append_assoc] at h
    obtain ⟨rfl, hlast⟩ := List.append_inj' h rfl
    exact .inr ⟨rest, by rw [List.concat_eq_append, List.singleton_inj.mp hlast], rfl⟩

namespace ReliableService.ServerLoop

variable {service : ServiceType} {l l' : ServerLoop} {i : Iteration} {sent : List ServerAct}

/-- The copy after a message of the broker. -/
def reacted (l : ServerLoop) (sm : ServiceModule) (now : Timespec) : ServerLoop :=
  { l with
    server := (l.server.receive sm).1
    deadline := timeAddMs now (heartbeatInterval + wcdPing) }

/-- The copy after the port has arrived. -/
def admitted (l : ServerLoop) (now : Timespec) : ServerLoop :=
  { l with
    sendReg := false
    regOk := true
    pingLoss := 0
    deadline := timeAddMs now (heartbeatInterval + wcdPing) }

/-- The copy after a deadline has expired. -/
def lost (l : ServerLoop) (now : Timespec) : ServerLoop :=
  { l with
    deadline := timeAddMs now (heartbeatInterval + wcdPing)
    pingLoss := l.pingLoss + 1 }

/-- One small step, with what is sent or logged. -/
inductive Acts (service : ServiceType) : ServerLoop → ServerAct → ServerLoop → Prop
  | react (l : ServerLoop) (sm : ServiceModule) (now : Timespec) (hok : l.regOk = true) :
      Acts service l (.react sm (l.server.receive sm).2) (l.reacted sm now)
  | pongHealthChecker (l : ServerLoop) : Acts service l .pongHealthChecker l
  | register (l : ServerLoop) (hok : l.regOk = false) (hsend : l.sendReg = false) :
      Acts service l (.register ⟨"pippo", service⟩) { l with sendReg := true }
  | registrationOk (l : ServerLoop) (port : UInt16) (now : Timespec) (hok : l.regOk = false)
      (hsend : l.sendReg = true) (hport : 0 < port) :
      Acts service l (.registrationOk port) (l.admitted now)
  | brokerPingTimeout (l : ServerLoop) (now : Timespec) (hok : l.regOk = true) :
      Acts service l .brokerPingTimeout (l.lost now)
  | brokerDead (l : ServerLoop) (hok : l.regOk = true) (hloss : l.pingLoss = liveness) :
      Acts service l .brokerDead { l with regOk := false }

/-! ## The rules -/

section Rules

variable {P : ServerLoop → List ServerAct → Prop}

/-- The copy has ended after these acts. -/
def Ended (P : ServerLoop → List ServerAct → Prop) (sent : List ServerAct) : Prop :=
  ∃ l, P l sent

theorem ends_serveBroker
    (hreact : ∀ sm, i.message = some sm → l.regOk = true → P l sent →
      P (l.reacted sm i.received) (sent ++ [.react sm (l.server.receive sm).2]))
    (h : P l sent) : (l.serveBroker i).Ends sent P (Ended P) := by
  unfold serveBroker
  split_ifs with hok
  · split
    · exact (Outcome.ends_pure l).mpr h
    · rename_i sm hmessage
      exact hreact sm hmessage hok h
  · exact (Outcome.ends_pure l).mpr h

variable (hact : ∀ l act l' sent, (∀ sm reaction, act ≠ .react sm reaction) →
  Acts service l act l' → P l sent → P l' (sent ++ [act]))

include hact

theorem ends_tryRegistration (h : P l sent) :
    (l.tryRegistration service i).Ends sent P (Ended P) := by
  unfold tryRegistration
  split_ifs with hok
  · exact (Outcome.ends_pure l).mpr h
  rw [Bool.not_eq_true] at hok
  unfold registration registerService
  -- the request, unless one has been sent before
  obtain ⟨before, hbefore, hsent⟩ : ∃ before, P { l with sendReg := true } before ∧
      (sendRegistration ⟨"pippo", service⟩ l.sendReg).Ends sent (fun _ sent' => sent' = before)
        (fun _ => False) := by
    unfold sendRegistration
    by_cases hsend : l.sendReg = true
    · refine ⟨sent, ?_, by rw [if_pos hsend, Outcome.ends_pure]⟩
      rw [← hsend]
      exact h
    · rw [Bool.not_eq_true] at hsend
      exact ⟨_, hact l _ _ sent (by simp) (.register l hok hsend) h, by simp [hsend, Outcome.Ends]⟩
  rw [Outcome.ends_bind, Outcome.ends_bind]
  refine hsent.imp ?_ fun _ h => h.elim
  rintro _ sent' rfl
  cases hanswer : i.answer with
  | none =>
      rw [Outcome.ends_pure]
      exact (Outcome.ends_pure _).mpr hbefore
  | some port =>
      rw [Outcome.ends_pure]
      dsimp only
      split_ifs with hport
      · exact hact _ _ _ sent' (by simp)
          (.registrationOk { l with sendReg := true } port i.registered hok rfl hport) hbefore
      · exact (Outcome.ends_fail _).mpr ⟨_, hbefore⟩

theorem ends_checkDeadline (h : P l sent) : (l.checkDeadline i).Ends sent P (Ended P) := by
  unfold checkDeadline
  split_ifs with hexpired
  · have hlost := hact l _ _ sent (by simp) (.brokerPingTimeout l i.expired hexpired.2) h
    rw [Outcome.ends_bind, Outcome.ends_of_ok (Outcome.tell_result _), Outcome.tell_sent]
    dsimp only
    split_ifs with hloss
    · exact hact _ _ _ _ (by simp) (.brokerDead (l.lost i.expired) hexpired.2 hloss) hlost
    · exact (Outcome.ends_pure _).mpr hlost
  · exact (Outcome.ends_pure l).mpr h

/-- **The rule for one iteration.**  Its message of the broker comes first. -/
theorem ends_iterate
    (hreact : ∀ sm, i.message = some sm → l.regOk = true → P l sent →
      P (l.reacted sm i.received) (sent ++ [.react sm (l.server.receive sm).2]))
    (h : P l sent) : (l.iterate service i).Ends sent P (Ended P) := by
  unfold iterate
  rw [Outcome.ends_bind]
  refine (ends_serveBroker hreact h).imp ?_ fun _ h => h
  intro l₁ sent₁ h₁
  have hpong : (pongHealthChecker i).Ends sent₁ (fun _ sent' => P l₁ sent') (Ended P) := by
    unfold pongHealthChecker
    split_ifs
    · exact hact l₁ _ l₁ sent₁ (by simp) (.pongHealthChecker l₁) h₁
    · exact (Outcome.ends_pure _).mpr h₁
  rw [Outcome.ends_bind]
  refine hpong.imp ?_ fun _ h => h
  intro _ sent₂ h₂
  rw [Outcome.ends_bind]
  refine (ends_tryRegistration hact h₂).imp ?_ fun _ h => h
  intro l₃ sent₃ h₃
  exact ends_checkDeadline hact h₃

end Rules

/-- One iteration as a step: no state once the process has ended. -/
def step (service : ServiceType) (l : ServerLoop) (i : Iteration) : Option ServerLoop :=
  (l.iterate service i).result.toOption

/-- **The rule for runs**, with a condition on the iterations that messages may use. -/
theorem ends_run_along {P : ServerLoop → List ServerAct → Prop} {C : ServerLoop → Iteration → Prop}
    (hact : ∀ l act l' sent, (∀ sm reaction, act ≠ .react sm reaction) →
      Acts service l act l' → P l sent → P l' (sent ++ [act]))
    (hreact : ∀ l i sm sent, C l i → i.message = some sm → l.regOk = true → P l sent →
      P (l.reacted sm i.received) (sent ++ [.react sm (l.server.receive sm).2]))
    {iterations : List Iteration} (halong : Machine.Along (step service) C l iterations)
    (h : P l sent) : (l.run service iterations).Ends sent P (Ended P) := by
  unfold run
  refine Outcome.Ends.imp (Outcome.ends_foldlM
    (P := fun rest l sent => Machine.Along (step service) C l rest ∧ P l sent) ?_ ⟨halong, h⟩)
    (fun _ _ h => h.2) fun _ h => h
  rintro i rest l sent ⟨halong, hl⟩
  have hone : (l.iterate service i).Ends sent P (Ended P) :=
    ends_iterate hact (fun sm => hreact l i sm sent halong.1) hl
  cases hresult : (l.iterate service i).result with
  | error fault =>
      exact (Outcome.ends_of_error hresult).mpr ((Outcome.ends_of_error hresult).mp hone)
  | ok l' =>
      have hnext : step service l i = some l' := Outcome.toOption_eq_some.mpr hresult
      exact (Outcome.ends_of_ok hresult).mpr
        ⟨halong.2 l' hnext, (Outcome.ends_of_ok hresult).mp hone⟩

/-- The rule for runs in which anything may arrive. -/
theorem ends_run {P : ServerLoop → List ServerAct → Prop}
    (hact : ∀ l act l' sent, Acts service l act l' → P l sent → P l' (sent ++ [act]))
    (iterations : List Iteration) (h : P l sent) :
    (l.run service iterations).Ends sent P (Ended P) :=
  ends_run_along (C := fun _ _ => True) (fun l act l' sent _ => hact l act l' sent)
    (fun l i sm sent _ _ hok hl => hact l _ _ sent (.react l sm i.received hok) hl)
    (Machine.along_of_forall (fun _ _ => trivial) l iterations) h

end ReliableService.ServerLoop
