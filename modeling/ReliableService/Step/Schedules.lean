import ReliableService.Model.Step

/-!
# The loop is a run

`schedule` lists the calls that `step` makes for a list of wake-ups, and `outputs_step_of_laid`
says that the handlers send and return in `step` what they send and return in the run of that list,
through its failures too.  Whatever is known of all runs is known of the loop.

In between stands the loop's own indexing: `items[i + DEALER_POLL_INDEX]` over the dealers,
`timeout[i]`, and sizes that are read again after `add_dealer`.  It is in range because the tables
are parallel, and a dealer that is added in a wake-up is not read in it.
-/

namespace ReliableService

/-! ## The calls of a wake-up -/

/-- What the wake-up does about `dealer[i]`, which is among the `before` dealers of its poll or
new. -/
def WakeUp.responseAt (w : WakeUp) (before i : ℕ) : Option Event :=
  if i < before then (w.reply i).map fun (serverReply, c) => .response i serverReply c else none

/-- The calls of one wake-up, with `before` dealers when it polls and `after` dealers once it has
looked at the registration socket. -/
def WakeUp.events (w : WakeUp) (before after : ℕ) : List Event :=
  (w.registration.toList.map fun (rm, now) => .registration rm now) ++
    (w.request.toList.map fun (c, request, now, later) => .request c request now later) ++
    (List.range after).filterMap (w.responseAt before) ++
    ((List.range after).map fun i => .heartbeat i w.now (w.renewed i)) ++
    [.sweep w.swept]

/-- A call of the wake-up. -/
def WakeUp.moment (w : WakeUp) (event : Event) : Moment := ⟨w.connected event, event⟩

namespace Broker

variable {nmr : UInt8} {b b' : Broker nmr} {w : WakeUp} {n : ℕ}

/-- How many dealers there are once the wake-up has looked at the registration socket. -/
def dealersAfter (b : Broker nmr) (w : WakeUp) : ℕ :=
  match w.registration with
  | none => b.dealer.length
  | some (rm, _) => if b.Completes rm then b.dealer.length + 1 else b.dealer.length

/-- The calls of one wake-up of this broker. -/
def moments (b : Broker nmr) (w : WakeUp) : List Moment :=
  (w.events b.dealer.length (b.dealersAfter w)).map w.moment

/-- The calls of the loop. -/
def schedule (b : Broker nmr) : List WakeUp → List Moment
  | [] => []
  | w :: wakeUps =>
      b.moments w ++
        match (b.wakeUp w).result with
        | .ok b' => b'.schedule wakeUps
        | .error _ => []

/-- The calls of the handlers that a computation of `step` makes. -/
abbrev outputs {α : Type} (m : StepEffect α) : Effect α := Outcome.only StepOutput.output? m

theorem outputs_call (w : WakeUp) (b : Broker nmr) (event : Event) :
    outputs (b.call w event) = b.handle (w.connected event) event :=
  Outcome.only_relay (f := StepOutput.handler) (fun _ => rfl) _

theorem outputs_bind {α β : Type} (m : StepEffect α) (k : α → StepEffect β) :
    outputs (m >>= k) = outputs m >>= fun a => outputs (k a) :=
  Outcome.only_bind m k

theorem outputs_foldlM {α ι : Type} (body : α → ι → StepEffect α) (xs : List ι) (a : α) :
    outputs (xs.foldlM body a) = xs.foldlM (fun a x => outputs (body a x)) a :=
  Outcome.only_foldlM body xs a

theorem outputs_call_eq_run (w : WakeUp) (b : Broker nmr) (event : Event) :
    outputs (b.call w event) = b.run [w.moment event] := by
  rw [outputs_call, run, List.foldlM_cons]
  exact (Outcome.bind_pure' _).symm

theorem run_append (b : Broker nmr) (first second : List Moment) :
    b.run (first ++ second) = b.run first >>= fun b' => b'.run second :=
  List.foldlM_append ..

theorem run_nil (b : Broker nmr) : b.run [] = pure b := rfl

/-! ## The sizes the loops run to -/

/-- Tables and poll set fit together, and there are `n` dealers. -/
structure Laid (n : ℕ) (b : Broker nmr) : Prop where
  tabled : b.Tabled
  polls : b.Polls
  dealer_length : b.dealer.length = n

theorem laid_init (portRouter portReg : UInt16) : (init portRouter portReg : Broker nmr).Laid 0 :=
  ⟨tabled_init portRouter portReg, rfl, rfl⟩

theorem Laid.items_length (h : b.Laid n) : b.items.length = n + dealerPollIndex := by
  rw [h.polls, List.length_append, List.length_map, h.dealer_length]
  exact Nat.add_comm ..

theorem Laid.timeout_length (h : b.Laid n) : b.timeout.length = n := by
  rw [h.tabled.timeout_length, ← h.tabled.dealer_length, h.dealer_length]

/-- A call that is no registration adds no dealer. -/
theorem Laid.handle (h : b.Laid n) {connected : ClientId → Bool} {event : Event}
    (hevent : ∀ rm now, event ≠ .registration rm now)
    (hb' : (b.handle connected event).result = .ok b') : b'.Laid n where
  tabled := h.tabled.handle hb'
  polls := h.polls.handle hb'
  dealer_length := by rw [handle_writes hevent hb', ← h.dealer_length]

/-- A registration adds one if it makes its service available. -/
theorem Laid.registration (h : b.Laid n) {connected : ClientId → Bool} {rm : RegistrationModule}
    {now : Timespec} (hb' : (b.handle connected (.registration rm now)).result = .ok b') :
    b'.Laid (if b.Completes rm then n + 1 else n) where
  tabled := h.tabled.handle hb'
  polls := h.polls.handle hb'
  dealer_length := by
    rw [handle_registration_ok hb']
    split
    · show (b.dealer ++ [_]).length = n + 1
      rw [List.length_append, h.dealer_length, List.length_singleton]
    · exact h.dealer_length

/-- An entry of the poll set is there, and it is read if the poll has seen it. -/
theorem Laid.pollIn (h : b.Laid n) {α : Type} {polled index : ℕ}
    (hindex : index < n + dealerPollIndex) (message : Option α) :
    b.pollIn polled index message = pure (if index < polled then message else none) := by
  rw [Broker.pollIn, if_pos (h.items_length ▸ hindex)]

/-! ## The parts of a wake-up -/

variable {before : ℕ}

/-- The fixed sockets are at the start of the poll set. -/
theorem Laid.pollIn_fixed (h : b.Laid n) {α : Type} {index : ℕ} (hindex : index < dealerPollIndex)
    (message : Option α) :
    b.pollIn (before + dealerPollIndex) index message = pure message := by
  rw [h.pollIn (by omega), if_pos (by omega)]

theorem outputs_pongHealthChecker (h : b.Laid n) :
    outputs (b.pongHealthChecker w (before + dealerPollIndex)) = pure () := by
  rw [Broker.pongHealthChecker, h.pollIn_fixed (by decide), Outcome.pure_bind']
  split
  · rfl
  · exact Outcome.only_tell_of_none rfl

theorem outputs_pollRegistration (h : b.Laid n) :
    outputs (b.pollRegistration w (before + dealerPollIndex)) =
      b.run ((w.registration.toList.map fun (rm, now) => .registration rm now).map w.moment) := by
  rw [pollRegistration, h.pollIn_fixed (by decide), Outcome.pure_bind']
  cases w.registration with
  | none => rfl
  | some registration => exact outputs_call_eq_run w b _

theorem outputs_pollRequest (h : b.Laid n) :
    outputs (b.pollRequest w (before + dealerPollIndex)) =
      b.run ((w.request.toList.map fun (c, request, now, later) =>
        .request c request now later).map w.moment) := by
  rw [pollRequest, h.pollIn_fixed (by decide), Outcome.pure_bind']
  cases w.request with
  | none => rfl
  | some request => exact outputs_call_eq_run w b _

theorem outputs_pollDealer (h : b.Laid n) {i : ℕ} (hi : i < n) :
    outputs (b.pollDealer w (before + dealerPollIndex) i) =
      (w.responseAt before i).elim (pure b) fun event => b.handle (w.connected event) event := by
  rw [pollDealer, h.pollIn (Nat.add_lt_add_right hi _), Outcome.pure_bind', WakeUp.responseAt]
  by_cases hseen : i < before
  · rw [if_pos hseen, if_pos (Nat.add_lt_add_right hseen _)]
    cases w.reply i with
    | none => rfl
    | some answer => exact outputs_call w b _
  · rw [if_neg hseen, if_neg (by omega)]
    rfl

/-- A handler called for an event is called for a moment. -/
theorem run_map_moment (b : Broker nmr) (w : WakeUp) (events : List Event) :
    b.run (events.map w.moment) =
      events.foldlM (fun b event => b.handle (w.connected event) event) b := by
  rw [run, List.foldlM_map]
  rfl

theorem responseAt_ne_registration {i : ℕ} {event : Event} (h : w.responseAt before i = some event)
    (rm : RegistrationModule) (now : Timespec) : event ≠ .registration rm now := by
  rintro rfl
  unfold WakeUp.responseAt at h
  split at h
  · obtain ⟨answer, -, hanswer⟩ := Option.map_eq_some_iff.mp h
    cases hanswer
  · cases h

theorem outputs_dealers (h : b.Laid n) :
    outputs ((List.range b.dealer.length).foldlM (pollDealer w (before + dealerPollIndex)) b) =
      b.run (((List.range n).filterMap (w.responseAt before)).map w.moment) := by
  rw [run_map_moment, outputs_foldlM, h.dealer_length]
  apply Outcome.foldlM_filterMap (P := Laid n) _ _ h
  · intro t ht i hi
    exact outputs_pollDealer ht (List.mem_range.mp hi)
  · intro t ht i event hevent t' ht'
    exact ht.handle (responseAt_ne_registration hevent) ht'

theorem outputs_timeouts (h : b.Laid n) :
    outputs ((List.range b.timeout.length).foldlM (pollTimeout w) b) =
      b.run (((List.range n).map fun i => .heartbeat i w.now (w.renewed i)).map w.moment) := by
  rw [run_map_moment, outputs_foldlM, h.timeout_length, List.foldlM_map]
  exact congrArg (fun body => (List.range n).foldlM body b)
    (funext fun b => funext fun i => outputs_call w b _)

/-! ## Wake-ups and the loop -/

/-- Two computations that go on in the same way from whatever the first one returns. -/
theorem bind_congr_of_ok {α β : Type} {m : Effect α} {k k' : α → Effect β}
    (h : ∀ a, m.result = .ok a → k a = k' a) : m >>= k = m >>= k' := by
  cases hm : m.result with
  | error e => rw [Outcome.bind_of_error hm, Outcome.bind_of_error hm]
  | ok a => rw [Outcome.bind_of_ok hm, Outcome.bind_of_ok hm, h a hm]

/-- Calls that are no registrations add no dealers. -/
theorem Laid.run (h : b.Laid n) {events : List Event}
    (hb' : (b.run (events.map w.moment)).result = .ok b')
    (hevents : ∀ event ∈ events, ∀ rm now, event ≠ .registration rm now) : b'.Laid n := by
  rw [run_map_moment] at hb'
  exact Outcome.foldlM_invariant (P := Laid n)
    (fun _ _ event hevent hs ht => hs.handle (hevents event hevent) ht) h hb'

theorem laid_of_registration (h : b.Laid n)
    (hb' : (b.run ((w.registration.toList.map fun (rm, now) =>
      .registration rm now).map w.moment)).result = .ok b') : b'.Laid (b.dealersAfter w) := by
  unfold dealersAfter
  rw [run_map_moment] at hb'
  cases hregistration : w.registration with
  | none =>
      rw [hregistration] at hb'
      obtain rfl : b = b' := Except.ok.inj hb'
      rw [h.dealer_length]
      exact h
  | some registration =>
      rw [hregistration] at hb'
      obtain ⟨t, ht, hb'⟩ := Outcome.bind_result_ok.mp hb'
      obtain rfl : t = b' := Except.ok.inj hb'
      rw [h.dealer_length]
      exact h.registration ht

/-- **A wake-up is a run.** -/
theorem outputs_wakeUp (h : b.Laid n) (w : WakeUp) :
    outputs (b.wakeUp w) = b.run (b.moments w) := by
  have hpolled : b.items.length = b.dealer.length + dealerPollIndex := by
    rw [h.items_length, h.dealer_length]
  unfold wakeUp moments WakeUp.events
  simp only [outputs_bind, List.map_append, List.append_assoc]
  rw [hpolled, outputs_pongHealthChecker h, Outcome.pure_bind', outputs_pollRegistration h,
    run_append]
  apply bind_congr_of_ok
  intro t ht
  have ht : t.Laid (b.dealersAfter w) := laid_of_registration h ht
  rw [outputs_pollRequest ht, run_append]
  apply bind_congr_of_ok
  intro u hu
  have hu : u.Laid (b.dealersAfter w) := ht.run hu fun event hevent => by
    obtain ⟨request, -, rfl⟩ := List.mem_map.mp hevent
    rintro _ _ ⟨⟩
  rw [outputs_dealers hu, run_append]
  apply bind_congr_of_ok
  intro v hv
  have hv : v.Laid (b.dealersAfter w) := hu.run hv fun event hevent => by
    obtain ⟨i, -, hi⟩ := List.mem_filterMap.mp hevent
    exact responseAt_ne_registration hi
  rw [outputs_timeouts hv, run_append]
  exact congrArg _ (funext fun x => outputs_call_eq_run w x _)

theorem run_moments_of_wakeUp (h : b.Laid n) (hb' : (b.wakeUp w).result = .ok b') :
    (b.run (b.moments w)).result = .ok b' := by
  rw [← outputs_wakeUp h]
  exact hb'

theorem Laid.wakeUp (h : b.Laid n) (hb' : (b.wakeUp w).result = .ok b') :
    b'.Laid (b.dealersAfter w) := by
  have hrun : (b.run (b.moments w)).result = .ok b' := run_moments_of_wakeUp h hb'
  unfold moments WakeUp.events at hrun
  rw [List.append_assoc, List.append_assoc, List.append_assoc, List.map_append, run_append] at hrun
  obtain ⟨t, ht, hrun⟩ := Outcome.bind_result_ok.mp hrun
  apply (laid_of_registration h ht).run hrun
  intro event hevent
  simp only [List.mem_append, List.mem_map, List.mem_filterMap, List.mem_singleton] at hevent
  rcases hevent with ⟨request, -, rfl⟩ | ⟨i, -, hi⟩ | ⟨i, -, rfl⟩ | rfl
  · rintro _ _ ⟨⟩
  · exact responseAt_ne_registration hi
  · rintro _ _ ⟨⟩
  · rintro _ _ ⟨⟩

theorem step_cons (b : Broker nmr) (w : WakeUp) (wakeUps : List WakeUp) :
    b.step (w :: wakeUps) = b.wakeUp w >>= fun b' => b'.step wakeUps :=
  List.foldlM_cons

theorem schedule_cons_of_ok (hb' : (b.wakeUp w).result = .ok b') (wakeUps : List WakeUp) :
    b.schedule (w :: wakeUps) = b.moments w ++ b'.schedule wakeUps := by
  rw [schedule, hb']

theorem outputs_step_of_laid (h : b.Laid n) (wakeUps : List WakeUp) :
    outputs (b.step wakeUps) = b.run (b.schedule wakeUps) := by
  induction wakeUps generalizing b n with
  | nil => rfl
  | cons w wakeUps ih =>
      rw [step_cons, outputs_bind, outputs_wakeUp h]
      cases hw : (b.wakeUp w).result with
      | error e =>
          have herror : (b.run (b.moments w)).result = .error e := by
            rw [← outputs_wakeUp h]
            exact hw
          rw [schedule, hw, List.append_nil, Outcome.bind_of_error herror]
          exact Outcome.ext' rfl herror.symm
      | ok b' =>
          rw [schedule_cons_of_ok hw, run_append,
            Outcome.bind_of_ok (run_moments_of_wakeUp h hw),
            Outcome.bind_of_ok (run_moments_of_wakeUp h hw), ih (h.wakeUp hw)]

theorem run_schedule (h : b.Laid n) {wakeUps : List WakeUp}
    (hb' : (b.step wakeUps).result = .ok b') : (b.run (b.schedule wakeUps)).result = .ok b' := by
  rw [← outputs_step_of_laid h]
  exact hb'

theorem schedule_append {wakeUps : List WakeUp} (hb' : (b.step wakeUps).result = .ok b')
    (later : List WakeUp) :
    b.schedule (wakeUps ++ later) = b.schedule wakeUps ++ b'.schedule later := by
  induction wakeUps generalizing b with
  | nil =>
      obtain rfl : b = b' := Except.ok.inj hb'
      rfl
  | cons w wakeUps ih =>
      rw [step_cons] at hb'
      obtain ⟨t, ht, hb'⟩ := Outcome.bind_result_ok.mp hb'
      rw [List.cons_append, schedule_cons_of_ok ht, schedule_cons_of_ok ht, ih hb',
        List.append_assoc]

/-- The sizes still fit after any number of wake-ups. -/
theorem Laid.step (h : b.Laid n) {wakeUps : List WakeUp}
    (hb' : (b.step wakeUps).result = .ok b') : ∃ m, b'.Laid m := by
  induction wakeUps generalizing b n with
  | nil =>
      obtain rfl : b = b' := Except.ok.inj hb'
      exact ⟨n, h⟩
  | cons w wakeUps ih =>
      rw [step_cons] at hb'
      obtain ⟨t, ht, hb'⟩ := Outcome.bind_result_ok.mp hb'
      exact ih (h.wakeUp ht) hb'

/-! ## The health checker -/

/-- The wake-ups the loop gets to. -/
def begun (b : Broker nmr) : List WakeUp → List WakeUp
  | [] => []
  | w :: wakeUps =>
      w :: match (b.wakeUp w).result with
        | .ok b' => b'.begun wakeUps
        | .error _ => []

/-- The pongs among what `step` sends. -/
def pongs {α : Type} (m : StepEffect α) : ℕ := m.sent.count .pong

theorem pongs_bind {α β : Type} {m : StepEffect α} {a : α} (h : m.result = .ok a)
    (k : α → StepEffect β) : pongs (m >>= k) = pongs m + pongs (k a) := by
  rw [pongs, Outcome.bind_sent_of_ok h, List.count_append]
  rfl

theorem pongs_bind_eq {α β : Type} {m : StepEffect α} {k : α → StepEffect β}
    (hk : ∀ a, pongs (k a) = 0) : pongs (m >>= k) = pongs m := by
  cases h : m.result with
  | error e => rw [Outcome.bind_of_error h]; rfl
  | ok a => rw [pongs_bind h, hk, Nat.add_zero]

theorem pongs_foldlM {α ι : Type} {body : α → ι → StepEffect α}
    (hbody : ∀ a x, pongs (body a x) = 0) (xs : List ι) (a : α) : pongs (xs.foldlM body a) = 0 := by
  induction xs generalizing a with
  | nil => rfl
  | cons x xs ih => rw [List.foldlM_cons, pongs_bind_eq ih, hbody]

theorem pongs_call (w : WakeUp) (b : Broker nmr) (event : Event) : pongs (b.call w event) = 0 := by
  apply List.count_eq_zero_of_not_mem
  intro h
  obtain ⟨output, -, houtput⟩ := List.mem_map.mp h
  cases houtput

theorem pongs_pollIn {α β : Type} {polled index : ℕ} {message : Option α}
    {k : Option α → StepEffect β} (hk : ∀ received, pongs (k received) = 0) :
    pongs (b.pollIn polled index message >>= k) = 0 := by
  rw [pongs_bind_eq hk, pollIn]
  split <;> rfl

theorem pongs_pollRegistration (polled : ℕ) (b : Broker nmr) :
    pongs (b.pollRegistration w polled) = 0 := by
  refine pongs_pollIn fun received => ?_
  cases received with
  | none => rfl
  | some registration => exact pongs_call ..

theorem pongs_pollRequest (polled : ℕ) (b : Broker nmr) : pongs (b.pollRequest w polled) = 0 := by
  refine pongs_pollIn fun received => ?_
  cases received with
  | none => rfl
  | some request => exact pongs_call ..

theorem pongs_pollDealer (polled : ℕ) (b : Broker nmr) (i : ℕ) :
    pongs (b.pollDealer w polled i) = 0 := by
  refine pongs_pollIn fun received => ?_
  cases received with
  | none => rfl
  | some answer => exact pongs_call ..

/-- The health checker is answered once, before anything else. -/
theorem pongs_wakeUp (h : b.Laid n) (w : WakeUp) :
    pongs (b.wakeUp w) = if w.healthCheckerPing then 1 else 0 := by
  have hpolled : b.items.length = b.dealer.length + dealerPollIndex := by
    rw [h.items_length, h.dealer_length]
  unfold wakeUp
  dsimp only
  rw [hpolled, pongs_bind_eq]
  · rw [pongHealthChecker, h.pollIn_fixed (by decide), Outcome.pure_bind']
    cases w.healthCheckerPing <;> rfl
  intro _
  rw [pongs_bind_eq, pongs_pollRegistration]
  intro b
  rw [pongs_bind_eq, pongs_pollRequest]
  intro b
  rw [pongs_bind_eq, pongs_foldlM (pongs_pollDealer _)]
  intro b
  rw [pongs_bind_eq fun b => pongs_call w b _]
  exact pongs_foldlM (fun b i => pongs_call w b _) _ _

theorem pongs_step (h : b.Laid n) (wakeUps : List WakeUp) :
    pongs (b.step wakeUps) = (b.begun wakeUps).countP (·.healthCheckerPing) := by
  induction wakeUps generalizing b n with
  | nil => rfl
  | cons w wakeUps ih =>
      rw [step_cons, begun, List.countP_cons]
      cases hw : (b.wakeUp w).result with
      | error e =>
          rw [Outcome.bind_of_error hw]
          exact (pongs_wakeUp h w).trans (Nat.zero_add _).symm
      | ok b' => rw [pongs_bind hw, pongs_wakeUp h w, ih (h.wakeUp hw), Nat.add_comm]

/-- **The loop is a run of the handlers**, whatever the poll finds: they send what they send in
the run of the schedule and end as it ends.  Besides, every ping of the health checker that the
loop comes across is answered once. -/
theorem step_eq_run (portRouter portReg : UInt16) (wakeUps : List WakeUp) :
    outputs ((init portRouter portReg : Broker nmr).step wakeUps) =
        (init portRouter portReg : Broker nmr).run
          ((init portRouter portReg : Broker nmr).schedule wakeUps) ∧
      pongs ((init portRouter portReg : Broker nmr).step wakeUps) =
        ((init portRouter portReg : Broker nmr).begun wakeUps).countP (·.healthCheckerPing) := by
  refine ⟨outputs_step_of_laid (laid_init portRouter portReg) wakeUps, ?_⟩
  exact pongs_step (laid_init portRouter portReg) wakeUps

end Broker

end ReliableService
