import ReliableService.Servers.Iterations

/-!
# When a copy gives the broker up

The log says when a deadline expires and when the copy takes the broker for dead.  What is
wanted is that the last `LIVENESS` things that happened between the copy and the broker were
expiries (`GivesUpAfterLosses`).

`ping_loss` counts the expiries since the registration, whatever came between them.  It is
the number of expiries in a row as long as no message arrives while the count is not zero.
-/

namespace ReliableService

/-- What passes between a copy and the broker: a message, a registration, an expiry. -/
def ServerAct.ofBroker : ServerAct → Bool
  | .react _ _ => true
  | .registrationOk _ => true
  | .brokerPingTimeout => true
  | _ => false

namespace ServerLoop

variable {service : ServiceType} {l l' : ServerLoop} {sent : List ServerAct} {act : ServerAct}

/-- The broker is given up only when the last `LIVENESS` deadlines have expired with no
message and no registration in between. -/
def GivesUpAfterLosses (sent : List ServerAct) : Prop :=
  ∀ before after, sent = before ++ .brokerDead :: after →
    List.replicate liveness.toNat .brokerPingTimeout <:+ before.filter ServerAct.ofBroker

/-- No message of the broker arrives while losses are counted. -/
def Undisturbed (l : ServerLoop) (i : Iteration) : Prop :=
  l.regOk = true → i.message.isSome → l.pingLoss = 0

instance (l : ServerLoop) (i : Iteration) : Decidable (l.Undisturbed i) :=
  inferInstanceAs (Decidable (_ → _ → _))

/-! ## The count -/

/-- The count is the number of expiries at the end of the log. -/
structure Counting (l : ServerLoop) (sent : List ServerAct) : Prop where
  losses : l.regOk = true →
    List.replicate l.pingLoss .brokerPingTimeout <:+ sent.filter ServerAct.ofBroker
  given_up : GivesUpAfterLosses sent

theorem GivesUpAfterLosses.append (h : GivesUpAfterLosses sent)
    (hdead : act = .brokerDead →
      List.replicate liveness.toNat .brokerPingTimeout <:+ sent.filter ServerAct.ofBroker) :
    GivesUpAfterLosses (sent ++ [act]) := by
  intro before after heq
  rcases List.concat_eq_append_cons heq with ⟨rfl, hact, -⟩ | ⟨rest, -, hold⟩
  · exact hdead hact.symm
  · exact h before rest hold

/-- A message or a registration starts the count again. -/
theorem Counting.restart (h : Counting l sent) (hzero : l'.pingLoss = 0)
    (hact : act ≠ .brokerDead) : Counting l' (sent ++ [act]) where
  losses _ := by
    rw [hzero]
    exact List.nil_suffix
  given_up := h.given_up.append fun heq => absurd heq hact

theorem Counting.acts (h : Counting l sent) (hacts : Acts service l act l')
    (hact : ∀ sm reaction, act ≠ .react sm reaction) : Counting l' (sent ++ [act]) := by
  have hskip : act.ofBroker = false → (sent ++ [act]).filter ServerAct.ofBroker =
      sent.filter ServerAct.ofBroker := by
    intro hof
    rw [List.filter_append, List.filter_cons_of_neg (by simp [hof]), List.filter_nil,
      List.append_nil]
  cases hacts with
  | react sm now hok => exact absurd rfl (hact sm _)
  | pongHealthChecker =>
      refine ⟨?_, h.given_up.append (by simp)⟩
      rw [hskip rfl]
      exact h.losses
  | register hok hsend =>
      refine ⟨?_, h.given_up.append (by simp)⟩
      rw [hskip rfl]
      exact h.losses
  | registrationOk port now hok hsend hport => exact h.restart rfl (by simp)
  | brokerPingTimeout now hok =>
      refine ⟨?_, h.given_up.append (by simp)⟩
      intro _
      show List.replicate (l.pingLoss + 1) ServerAct.brokerPingTimeout <:+ _
      obtain ⟨before, hbefore⟩ := h.losses hok
      rw [List.replicate_succ', List.filter_append, ← hbefore, List.append_assoc]
      exact List.suffix_append ..
  | brokerDead hok hloss =>
      have hlosses := h.losses hok
      refine ⟨fun hfalse => Bool.noConfusion hfalse, h.given_up.append fun _ => ?_⟩
      rw [← hloss, Int.toNat_natCast]
      exact hlosses

/-- **A copy gives the broker up only after losses in a row**, in every run in which no message
arrives while losses are counted. -/
theorem givesUpAfterLosses_of_undisturbed (service : ServiceType) (iterations : List Iteration)
    (halong : Machine.Along (step service) Undisturbed init iterations) :
    GivesUpAfterLosses (init.run service iterations).sent := by
  have hstart : Counting init [] := by
    refine ⟨fun hfalse => Bool.noConfusion hfalse, ?_⟩
    intro before after heq
    exact absurd heq.symm (by simp)
  have hends := ends_run_along (P := Counting)
    (fun l act l' sent hact hacts h => h.acts hacts hact)
    (fun l i sm sent hundisturbed hmessage hok h => h.restart
      (hundisturbed hok (by simp [hmessage])) (by simp)) halong hstart
  cases hresult : (init.run service iterations).result with
  | error fault =>
      obtain ⟨l, h⟩ := (Outcome.ends_of_error hresult).mp hends
      exact h.given_up
  | ok l => exact ((Outcome.ends_of_ok hresult).mp hends).given_up

/-! ## Isolated losses -/

/-- An iteration that meets nothing, at second `now`. -/
def waiting (now : Int) : Iteration where
  polled := ⟨now, 0⟩
  message := none
  received := ⟨now, 0⟩
  healthCheckerPing := false
  answer := none
  registered := ⟨now, 0⟩
  expired := ⟨now, 0⟩

/-- The copy registers. -/
def admission (now : Int) : Iteration := { waiting now with answer := some dealerStartPort }

/-- A ping of the broker arrives. -/
def pinged (now : Int) (seqId : UInt32) : Iteration :=
  { waiting now with message := some ⟨true, seqId, none⟩ }

/-- The broker pings once and is not heard of again. -/
def silentRun : List Iteration := [admission 0, pinged 2 0, waiting 10, waiting 20, waiting 30]

theorem givesUpAfterLosses_silentRun :
    ServerAct.brokerDead ∈ (init.run 0 silentRun).sent ∧
      GivesUpAfterLosses (init.run 0 silentRun).sent :=
  ⟨by decide +kernel, givesUpAfterLosses_of_undisturbed 0 silentRun (by decide +kernel)⟩

/-- A ping comes late three times. -/
def latePingsRun : List Iteration :=
  [admission 0, waiting 3, pinged 4 0, waiting 7, pinged 8 1, waiting 11]

/-- **Three isolated losses add up.** -/
theorem isolated_losses_add_up :
    ¬ ∀ (service : ServiceType) (iterations : List Iteration),
      GivesUpAfterLosses (init.run service iterations).sent := by
  intro h
  have hsuffix := h 0 latePingsRun ((init.run 0 latePingsRun).sent.take 7) [] (by decide +kernel)
  exact absurd hsuffix (by decide +kernel)

end ServerLoop

end ReliableService
