import ReliableService.Model.PollSet

/-!
# A copy that polls

What is known of a copy is known of its loop without sockets, which is handed the message that the
poll has found.  Here the loop with sockets does the same: an iteration of the one is an iteration
of the other, handed the message at the socket of the last registration.

The invariant (`Fits`) is that the poll set has an entry for the health checker, and one for that
socket as long as the copy takes itself to be registered, and no other.

The exception is the first registration, which deletes a pointer that was never written.  Where
chance has not made it null, the copy does not outlive it, and `run_mirrors_iff` says that nothing
else comes between the two loops.
-/

namespace ReliableService

/-- What is there at the socket of a pointer. -/
def ServerWakeUp.message (w : ServerWakeUp) : SocketPointer → Option ServiceModule
  | .socket socket => w.waiting socket
  | .null => none
  | .wild => none

/-- The iteration, handed what is there at that socket. -/
def ServerWakeUp.at (w : ServerWakeUp) (reply : SocketPointer) : Iteration where
  polled := w.polled
  message := w.message reply
  received := w.received
  healthCheckerPing := w.healthCheckerPing
  answer := w.answer
  registered := w.registered
  expired := w.expired

namespace PolledServer

variable {zeroed : Bool} {p p' : PolledServer} {l : ServerLoop}

/-- The poll set goes with the copy. -/
structure Fits (zeroed : Bool) (p : PolledServer) (l : ServerLoop) : Prop where
  loop_eq : p.loop = l
  items_eq : p.items = .hcPong :: if l.regOk then p.reply.item?.toList else []
  current : l.regOk = true → ∃ socket, p.reply = .socket socket
  written : p.reply = .wild → zeroed = false

theorem fits_init (zeroed : Bool) : Fits zeroed (init zeroed) ServerLoop.init where
  loop_eq := rfl
  items_eq := rfl
  current hok := absurd hok Bool.false_ne_true
  written hwild := by
    cases zeroed with
    | false => rfl
    | true => cases hwild

theorem Fits.poll_eq (h : Fits zeroed p l) : p.poll = pure () := by
  unfold poll
  rw [h.items_eq, if_pos]
  cases hok : l.regOk with
  | false => rfl
  | true =>
      obtain ⟨socket, hreply⟩ := h.current hok
      rw [hreply]
      simp [SocketPointer.item?]

theorem Fits.pollIn_pong (h : Fits zeroed p l) (w : ServerWakeUp) :
    p.pollIn w serverPongIndex = pure w.healthCheckerPing := by
  rw [pollIn, h.items_eq]
  rfl

theorem Fits.pollIn_request (h : Fits zeroed p l) (hok : l.regOk = true) {socket : ℕ}
    (hreply : p.reply = .socket socket) (w : ServerWakeUp) :
    p.pollIn w serviceRequestIndex = pure (w.waiting socket).isSome := by
  rw [pollIn, h.items_eq, hok, hreply]
  rfl

theorem Fits.serveBroker (h : Fits zeroed p l) (w : ServerWakeUp) :
    Outcome.Mirrors (Fits zeroed) .fault (p.serveBroker w) (l.serveBroker (w.at p.reply)) := by
  obtain ⟨loop, items, reply, made⟩ := p
  have hfits := h
  obtain ⟨rfl, hitems, hcurrent, hwritten⟩ := h
  unfold PolledServer.serveBroker ServerLoop.serveBroker
  by_cases hok : loop.regOk = true
  · obtain ⟨socket, hreply⟩ := hcurrent hok
    obtain rfl : reply = .socket socket := hreply
    rw [if_pos hok, if_pos hok, hfits.pollIn_request hok rfl, Outcome.pure_bind']
    have hmessage : (w.at (.socket socket)).message = w.waiting socket := rfl
    dsimp only
    rw [hmessage]
    cases hwaiting : w.waiting socket with
    | none => exact Outcome.mirrors_pure hfits
    | some sm =>
        refine Outcome.mirrors_tell_bind _ ?_
        exact Outcome.mirrors_pure ⟨rfl, hitems, hcurrent, hwritten⟩
  · rw [if_neg hok, if_neg hok]
    exact Outcome.mirrors_pure hfits

theorem Fits.pongHealthChecker (h : Fits zeroed p l) (w : ServerWakeUp) (reply : SocketPointer) :
    Outcome.Mirrors (fun _ _ => True) .fault (p.pongHealthChecker w)
      (ServerLoop.pongHealthChecker (w.at reply)) := by
  unfold PolledServer.pongHealthChecker ServerLoop.pongHealthChecker
  rw [h.pollIn_pong, Outcome.pure_bind']
  show Outcome.Mirrors _ _ _ (if w.healthCheckerPing then _ else _)
  split_ifs
  · exact Outcome.mirrors_tell _ trivial
  · exact Outcome.mirrors_pure trivial

/-- A registration that succeeds needs a pointer that may be deleted. -/
theorem Fits.tryRegistration (h : Fits zeroed p l) (service : ServiceType) (w : ServerWakeUp)
    (reply : SocketPointer) (hquiet : p.reply = .wild →
      ∀ port, .registrationOk port ∉ (p.tryRegistration service w).sent) :
    Outcome.Mirrors (Fits zeroed) .fault (p.tryRegistration service w)
      (l.tryRegistration service (w.at reply)) := by
  obtain ⟨rfl, hitems, hcurrent, hwritten⟩ := h
  unfold PolledServer.tryRegistration at hquiet ⊢
  unfold ServerLoop.tryRegistration
  by_cases hok : p.loop.regOk = true
  · rw [if_pos hok, if_pos hok]
    exact Outcome.mirrors_pure ⟨rfl, hitems, hcurrent, hwritten⟩
  · rw [if_neg hok] at hquiet hitems ⊢
    rw [if_neg hok]
    refine (Outcome.mirrors_mapFault _).bind ?_
    rintro ⟨brokerPort, sendReg⟩ _ hresult rfl
    cases brokerPort with
    | none =>
        refine Outcome.mirrors_pure ⟨rfl, ?_, fun hregOk => absurd hregOk hok, hwritten⟩
        rw [hitems]
        exact (if_neg hok).symm ▸ rfl
    | some port =>
        dsimp only
        by_cases hport : 0 < port
        · rw [if_pos hport, if_pos hport]
          have hwild : p.reply ≠ .wild := by
            intro hwild
            apply hquiet hwild port
            refine Outcome.mem_bind_sent.mpr (.inr ⟨_, hresult, ?_⟩)
            dsimp only
            rw [if_pos hport]
            exact Outcome.mem_bind_sent.mpr (.inl (List.mem_singleton_self _))
          refine Outcome.mirrors_tell_bind _ ?_
          rw [deleteReply, if_neg hwild, Outcome.pure_bind']
          refine Outcome.mirrors_pure ⟨rfl, by rw [hitems]; rfl, fun _ => ⟨p.made, rfl⟩, ?_⟩
          intro hwritten
          cases hwritten
        · rw [if_neg hport, if_neg hport]
          exact Outcome.mirrors_fail _

theorem Fits.checkDeadline (h : Fits zeroed p l) (w : ServerWakeUp) (reply : SocketPointer) :
    Outcome.Mirrors (Fits zeroed) .fault (p.checkDeadline w)
      (l.checkDeadline (w.at reply)) := by
  obtain ⟨rfl, hitems, hcurrent, hwritten⟩ := h
  unfold PolledServer.checkDeadline ServerLoop.checkDeadline
  by_cases hexpired : timeCmp (w.at reply).polled p.loop.deadline = 1 ∧ p.loop.regOk = true
  · have hpolled : timeCmp w.polled p.loop.deadline = 1 ∧ p.loop.regOk = true := hexpired
    rw [if_pos hpolled, if_pos hexpired]
    obtain ⟨socket, hreply⟩ := hcurrent hexpired.2
    -- the entry at the end is that of the socket
    have htwo : p.items = [.hcPong, .reply socket] := by
      rw [hitems, if_pos hexpired.2, hreply]
      rfl
    have hlast : p.items.dropLast = [.hcPong] := by rw [htwo]; rfl
    have hnonempty : p.items ≠ [] := by simp [hitems]
    refine Outcome.mirrors_tell_bind _ ?_
    dsimp only
    rw [if_neg hnonempty]
    split_ifs
    · refine Outcome.mirrors_tell_bind _ ?_
      refine Outcome.mirrors_pure ⟨rfl, hlast, fun hregOk => ?_, hwritten⟩
      cases hregOk
    · exact Outcome.mirrors_pure ⟨rfl, hitems, hcurrent, hwritten⟩
  · have hpolled : ¬ (timeCmp w.polled p.loop.deadline = 1 ∧ p.loop.regOk = true) := hexpired
    rw [if_neg hpolled, if_neg hexpired]
    exact Outcome.mirrors_pure ⟨rfl, hitems, hcurrent, hwritten⟩

/-- **An iteration** mirrors one, unless it registers with a pointer that was never written. -/
theorem Fits.iterate (h : Fits zeroed p l) (service : ServiceType) (w : ServerWakeUp)
    (hquiet : zeroed = false → ∀ port, .registrationOk port ∉ (p.iterate service w).sent) :
    Outcome.Mirrors (Fits zeroed) .fault (p.iterate service w)
      (l.iterate service (w.at p.reply)) := by
  unfold PolledServer.iterate at hquiet ⊢
  unfold ServerLoop.iterate
  rw [h.poll_eq, Outcome.pure_bind'] at hquiet ⊢
  refine (h.serveBroker w).bind fun p₁ l₁ hp₁ h₁ => ?_
  refine (h₁.pongHealthChecker w p.reply).bind fun _ _ hpong _ => ?_
  refine (h₁.tryRegistration service w p.reply ?_).bind fun p₂ l₂ _ h₂ => ?_
  · intro hwild port hmem
    apply hquiet (h₁.written hwild) port
    refine Outcome.mem_bind_sent.mpr (.inr ⟨p₁, hp₁, ?_⟩)
    refine Outcome.mem_bind_sent.mpr (.inr ⟨_, hpong, ?_⟩)
    exact Outcome.mem_bind_sent.mpr (.inl hmem)
  · exact h₂.checkDeadline w p.reply

/-- The iterations of the loop without sockets: each is handed what is there at the socket of the
last registration. -/
def seen (service : ServiceType) (p : PolledServer) (wakeUps : List ServerWakeUp) :
    List Iteration :=
  Outcome.views (iterate service) (fun p w => w.at p.reply) p wakeUps

/-! ## A pointer that was never written -/

/-- The copy has not registered yet, and `reply` is as the constructor left it. -/
structure Wild (p : PolledServer) : Prop where
  reply_eq : p.reply = .wild
  regOk_eq : p.loop.regOk = false

/-- The log entry of a registration that has succeeded. -/
def Registers (act : ServerAct) : Prop := ∃ port, act = .registrationOk port

theorem not_registers_of_registration {service : ServiceType} {sendReg : Bool}
    {answer : Option UInt16} {act : ServerAct}
    (h : act ∈ (registration service sendReg answer).sent) : ¬ Registers act := by
  rintro ⟨port, rfl⟩
  unfold registration registerService sendRegistration at h
  cases sendReg <;> cases answer <;> simp at h

/-- Its third block deletes `reply`, if the registration succeeds. -/
theorem Wild.tryRegistration (h : p.Wild) (service : ServiceType) (w : ServerWakeUp) :
    Outcome.Fatal Registers .badPointer Wild (p.tryRegistration service w) := by
  unfold PolledServer.tryRegistration
  rw [if_neg (by simp [h.regOk_eq])]
  refine Outcome.Fatal.bind (P := fun _ => True)
    (Outcome.fatal_of_not_mem (fun _ _ => trivial) fun _ => not_registers_of_registration) ?_
  rintro ⟨brokerPort, sendReg⟩ -
  cases brokerPort with
  | none => exact Outcome.fatal_pure ⟨h.reply_eq, h.regOk_eq⟩
  | some port =>
      dsimp only
      split_ifs
      · rw [deleteReply, if_pos h.reply_eq, Outcome.fail_bind]
        refine ⟨fun a ha => ?_, fun _ _ _ => rfl⟩
        cases ha
      · exact Outcome.fatal_fail _

theorem fatal_poll (p : PolledServer) :
    Outcome.Fatal Registers .badPointer (fun _ => True) p.poll := by
  unfold poll
  split_ifs
  · exact Outcome.fatal_pure trivial
  · exact Outcome.fatal_fail _

theorem fatal_pongHealthChecker (p : PolledServer) (w : ServerWakeUp) :
    Outcome.Fatal Registers .badPointer (fun _ => True) (p.pongHealthChecker w) := by
  have hpong : ¬ Registers .pongHealthChecker := by
    rintro ⟨port, hport⟩
    cases hport
  unfold PolledServer.pongHealthChecker pollIn
  refine Outcome.Fatal.bind (P := fun _ => True) ?_ fun ready _ => ?_
  · split
    · exact Outcome.fatal_fail _
    · exact Outcome.fatal_pure trivial
  · split_ifs
    · exact Outcome.fatal_tell hpong
    · exact Outcome.fatal_fail _
    · exact Outcome.fatal_pure trivial

theorem Wild.iterate (h : p.Wild) (service : ServiceType) (w : ServerWakeUp) :
    Outcome.Fatal Registers .badPointer Wild (p.iterate service w) := by
  have hserve : p.serveBroker w = pure p := by
    unfold PolledServer.serveBroker
    rw [if_neg (by simp [h.regOk_eq])]
  unfold PolledServer.iterate
  refine (fatal_poll p).bind fun _ _ => ?_
  rw [hserve, Outcome.pure_bind']
  refine (fatal_pongHealthChecker p w).bind fun _ _ => ?_
  refine (h.tryRegistration service w).bind fun p' hp' => ?_
  have hcheck : p'.checkDeadline w = pure p' := by
    unfold PolledServer.checkDeadline
    rw [if_neg (by simp [hp'.regOk_eq])]
  rw [hcheck]
  exact Outcome.fatal_pure hp'

/-- **A copy does not outlive its first registration** where the memory was not null. -/
theorem fatal_run (service : ServiceType) (wakeUps : List ServerWakeUp) :
    Outcome.Fatal Registers .badPointer Wild ((init false).run service wakeUps) :=
  Outcome.fatal_foldlM (fun _ w hp => hp.iterate service w) ⟨rfl, rfl⟩

/-- **Polling makes no difference**: a copy with its sockets sends and logs what it does without
them, when it is handed the messages at the socket of the last registration, and ends as it does;
and while it runs, its poll set holds the health checker and, if it is registered, that socket.
It is so exactly where the first registration deletes a null pointer or never succeeds. -/
theorem run_mirrors_iff (zeroed : Bool) (service : ServiceType) (wakeUps : List ServerWakeUp) :
    Outcome.Mirrors (Fits zeroed) .fault ((init zeroed).run service wakeUps)
        (ServerLoop.init.run service ((init zeroed).seen service wakeUps)) ↔
      zeroed = true ∨ ∀ port, .registrationOk port ∉ ((init zeroed).run service wakeUps).sent := by
  constructor
  · intro hmirrors
    cases zeroed with
    | true => exact .inl rfl
    | false =>
        refine .inr fun port hmem => ?_
        have hend := (fatal_run service wakeUps).ends _ hmem ⟨port, rfl⟩
        -- the loop without sockets cannot end like this
        cases hloop : (ServerLoop.init.run service ((init false).seen service wakeUps)).result with
        | ok l =>
            obtain ⟨p, hp, -⟩ := hmirrors.ok l hloop
            rw [hend] at hp
            cases hp
        | error e =>
            have hfault := hmirrors.error e hloop
            rw [hend] at hfault
            cases hfault
  · intro hquiet
    refine Outcome.mirrors_foldlM_of_sent
      (P := fun act => zeroed = false → ¬ Registers act) ?_ (fits_init zeroed) ?_
    · intro p l w h hsent
      refine h.iterate service w fun hzeroed port hmem => ?_
      exact hsent _ hmem hzeroed ⟨port, rfl⟩
    · rintro act hmem hzeroed ⟨port, rfl⟩
      rcases hquiet with hnull | hquiet
      · rw [hnull] at hzeroed
        cases hzeroed
      · exact hquiet port hmem

end PolledServer

end ReliableService
