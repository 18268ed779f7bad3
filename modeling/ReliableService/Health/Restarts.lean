import ReliableService.Lib.Machine
import ReliableService.Model.HealthChecker

/-!
# Whom a health checker kills

A restart puts `hb_liveness` back, but sends no ping and leaves `pong_arrived` alone.  If the
process that ended had taken the ping, the `REQ` socket waits for a pong that nobody will send
and never sends a ping again: the new process is killed after `HEARTBEAT_LIVENESS` intervals
however well it is, and so is every one after it.

A `History` follows a run with what the health checker cannot see.  `Justified` says of a kill
what is wanted, and `justified_of_prompt` that every kill is justified in runs in which no
interval ends with a lost ping, pings are taken promptly, and no process ends before its first
ping.  `abandoned_run` says that a lost ping is the last one.
-/

namespace ReliableService.Watch

/-- What has happened, beyond what the health checker knows. -/
structure History where
  /-- Intervals in a row without a pong since the process was started. -/
  silence : ℕ
  /-- Intervals that have ended since the process took the ping. -/
  age : ℕ
  /-- The process has left a ping unanswered for more than an interval. -/
  late : Bool
  deriving DecidableEq, Repr

def History.init : History := ⟨0, 0, false⟩

variable {kind : HealthCheckerKind} {w w' : Watch} {h : History} {action : WatchAction}

/-- The process that is running has the ping. -/
def Holds (w : Watch) : Prop := w.ping = .taken w.hc.pid

instance (w : Watch) : Decidable w.Holds := inferInstanceAs (Decidable (_ = _))

/-- An interval ends.  Between the first interval to end with the ping in the process and the
second one, a whole interval passes. -/
def History.tick (w : Watch) (h : History) : History where
  silence := h.silence + 1
  age := if w.Holds then h.age + 1 else h.age
  late := h.late || (w.Holds && 1 ≤ h.age)

/-- The next interval to end ends with a kill. -/
def Kills (w : Watch) : Prop :=
  w.ping ≠ .answered ∧ w.hc.pongArrived = false ∧ w.hc.hbLiveness - 1 = 0

instance (w : Watch) : Decidable w.Kills := inferInstanceAs (Decidable (_ ∧ _ ∧ _))

/-- How the history goes on. -/
def History.update (w : Watch) (action : WatchAction) (h : History) : History :=
  match action with
  | .pong => { h with silence := 0 }
  | .timeout => if w.Kills then History.init else h.tick w
  | .deliver => { h with age := 0 }
  | .answer => h
  | .crash => h

/-- **What is wanted of a kill**: a ping was delivered to the process, the last intervals have
passed without its pong, and a process that is still running is late with an answer. -/
structure Justified (w : Watch) (h : History) : Prop where
  pinged : w.pinged = true
  silent : heartbeatLiveness.toNat ≤ (h.tick w).silence
  late : w.alive = true → (h.tick w).late = true

instance (w : Watch) (h : History) : Decidable (w.Justified h) :=
  decidable_of_iff (w.pinged = true ∧ heartbeatLiveness.toNat ≤ (h.tick w).silence ∧
      (w.alive = true → (h.tick w).late = true))
    ⟨fun ⟨hpinged, hsilent, hlate⟩ => ⟨hpinged, hsilent, hlate⟩,
      fun ⟨hpinged, hsilent, hlate⟩ => ⟨hpinged, hsilent, hlate⟩⟩

/-- The action is no kill, or the kill is justified. -/
def KillsJustly (s : Watch × History) (action : WatchAction) : Prop :=
  action = .timeout → s.1.Kills → s.1.Justified s.2

instance (s : Watch × History) (action : WatchAction) : Decidable (KillsJustly s action) :=
  inferInstanceAs (Decidable (_ → _))

/-- The ping was taken by a process that has been replaced. -/
def Lost (w : Watch) : Prop :=
  match w.ping with
  | .taken pid => pid ≠ w.hc.pid
  | _ => False

instance (w : Watch) : Decidable w.Lost :=
  match h : w.ping with
  | .taken pid => decidable_of_iff (pid ≠ w.hc.pid) (by simp [Lost, h])
  | .idle => .isFalse (by simp [Lost, h])
  | .queued => .isFalse (by simp [Lost, h])
  | .answered => .isFalse (by simp [Lost, h])

/-- When an interval ends without a pong, the ping is not lost, and a running process has taken
it unless it is the first interval; a process that crashes has taken a ping before. -/
def Prompt (w : Watch) : WatchAction → Prop
  | .timeout => w.hc.pongArrived = false →
      ¬w.Lost ∧ (w.ping = .queued → w.alive = true → w.hc.hbLiveness = heartbeatLiveness)
  | .crash => w.pinged = true
  | _ => True

instance (w : Watch) : ∀ action, Decidable (w.Prompt action)
  | .timeout => inferInstanceAs (Decidable (_ → _))
  | .crash => inferInstanceAs (Decidable (_ = _))
  | .pong => inferInstanceAs (Decidable True)
  | .deliver => inferInstanceAs (Decidable True)
  | .answer => inferInstanceAs (Decidable True)

/-! ## What the health checker counts -/

/-- A poll that ends after the interval, case by case. -/
theorem afterInterval_eq (kind : HealthCheckerKind) (w : Watch) :
    w.afterInterval kind =
      if w.hc.pongArrived then { w with hc := { w.hc with pongArrived := false }, ping := .queued }
      else if w.hc.hbLiveness - 1 = 0 then
        { w with
          hc := HealthChecker.init (w.hc.pid + 1)
          alive := true
          pinged := false }
      else { w with hc := { w.hc with hbLiveness := w.hc.hbLiveness - 1 } } := by
  unfold afterInterval HealthChecker.timeout
  split_ifs <;> rfl

/-- What the health checker counts, in every state it can be in. -/
structure Counting (w : Watch) : Prop where
  level : w.hc.hbLiveness = 1 ∨ w.hc.hbLiveness = 2 ∨ w.hc.hbLiveness = heartbeatLiveness
  idle : w.hc.pongArrived = true ↔ w.ping = .idle
  full : w.hc.pongArrived = true → w.hc.hbLiveness = heartbeatLiveness

theorem counting_init : Counting init := by
  constructor <;> decide

/-- One interval less is left, unless it was the last. -/
theorem Counting.sub_one (hcounting : Counting w) (hleft : w.hc.hbLiveness - 1 ≠ 0) :
    (w.hc.hbLiveness - 1 = 1 ∨ w.hc.hbLiveness - 1 = 2) ∧
      (w.hc.hbLiveness - 1).toNat + 1 = w.hc.hbLiveness.toNat := by
  rcases hcounting.level with hlevel | hlevel | hlevel
  · rw [hlevel] at hleft
    exact absurd (by decide) hleft
  · rw [hlevel]
    decide
  · rw [hlevel]
    decide

theorem Counting.last (hcounting : Counting w) (hzero : w.hc.hbLiveness - 1 = 0) :
    w.hc.hbLiveness = 1 := by
  rcases hcounting.level with hlevel | hlevel | hlevel
  · exact hlevel
  · rw [hlevel] at hzero
    exact absurd hzero (by decide)
  · rw [hlevel] at hzero
    exact absurd hzero (by decide)

theorem Counting.afterInterval (hcounting : Counting w) : Counting (w.afterInterval kind) := by
  rw [afterInterval_eq]
  split_ifs with hpong hzero
  · have hoff : false ≠ true := Bool.false_ne_true
    have hqueued : PingPlace.queued ≠ .idle := by decide
    exact ⟨hcounting.level, iff_of_false hoff hqueued, fun hon => absurd hon hoff⟩
  · have hidle : w.ping ≠ .idle := fun hidle => hpong (hcounting.idle.mpr hidle)
    exact ⟨.inr (.inr rfl), iff_of_false Bool.false_ne_true hidle, fun _ => rfl⟩
  · exact ⟨(hcounting.sub_one hzero).1.imp_right .inl, hcounting.idle, fun hon => absurd hon hpong⟩

theorem Counting.step (hcounting : Counting w) (hstep : w.step kind action = some w') :
    Counting w' := by
  cases action with
  | pong =>
      simp only [Watch.step] at hstep
      split_ifs at hstep
      obtain rfl := Option.some.inj hstep
      exact ⟨.inr (.inr rfl), ⟨fun _ => rfl, fun _ => rfl⟩, fun _ => rfl⟩
  | timeout =>
      simp only [Watch.step] at hstep
      split_ifs at hstep
      obtain rfl := Option.some.inj hstep
      exact hcounting.afterInterval
  | deliver =>
      simp only [Watch.step] at hstep
      split_ifs at hstep with hqueued
      obtain rfl := Option.some.inj hstep
      have hidle : w.ping ≠ .idle := by rw [hqueued.1]; decide
      exact ⟨hcounting.level, hcounting.idle.trans (iff_of_false hidle (by simp)), hcounting.full⟩
  | answer =>
      simp only [Watch.step] at hstep
      split_ifs at hstep with htaken
      obtain rfl := Option.some.inj hstep
      have hidle : w.ping ≠ .idle := by rw [htaken.1]; simp
      exact ⟨hcounting.level, hcounting.idle.trans (iff_of_false hidle (by simp)), hcounting.full⟩
  | crash =>
      simp only [Watch.step] at hstep
      split_ifs at hstep
      obtain rfl := Option.some.inj hstep
      exact ⟨hcounting.level, hcounting.idle, hcounting.full⟩

theorem Counting.run (hcounting : Counting w) {actions : List WatchAction}
    (hrun : Machine.run (Watch.step kind) w actions = some w') : Counting w' :=
  Machine.run_invariant (C := fun _ _ => True) (fun _ _ _ h _ hstep => Counting.step h hstep)
    hcounting (Machine.along_of_forall (fun _ _ => trivial) w actions) hrun

/-! ## The invariant -/

/-- What the health checker knows, the process and the history agree. -/
structure Agrees (h : History) (w : Watch) : Prop extends Counting w where
  silence : heartbeatLiveness.toNat ≤ h.silence + w.hc.hbLiveness.toNat
  queued : w.ping = .queued → w.alive = true → w.hc.hbLiveness ≠ 1
  taken : w.Holds → w.pinged = true ∧ 2 ≤ h.age + w.hc.hbLiveness.toNat
  dead : w.alive = false → w.pinged = true

theorem agrees_init : Agrees History.init init := by
  refine ⟨counting_init, ?_, ?_, ?_, ?_⟩ <;> decide

theorem Agrees.two_le (hagrees : Agrees h w) (hleft : w.hc.hbLiveness ≠ 1) :
    2 ≤ w.hc.hbLiveness.toNat := by
  rcases hagrees.level with hlevel | hlevel | hlevel
  · exact absurd hlevel hleft
  · rw [hlevel]
    decide
  · rw [hlevel]
    decide

theorem Agrees.justified (hagrees : Agrees h w) (hprompt : w.Prompt .timeout) (hkills : w.Kills) :
    w.Justified h := by
  obtain ⟨hanswered, hpong, hzero⟩ := hkills
  obtain ⟨hlost, hqueued⟩ := hprompt hpong
  have hone := hagrees.last hzero
  have hsilence := hagrees.silence
  rw [hone] at hsilence
  have hsilent : heartbeatLiveness.toNat ≤ (h.tick w).silence := hsilence
  cases hping : w.ping with
  | idle => exact absurd (hagrees.idle.mpr hping) (by simp [hpong])
  | queued =>
      -- a running process would have taken the ping by now
      have hdead : w.alive = false := by
        by_contra halive
        rw [Bool.not_eq_false] at halive
        exact absurd (hqueued hping halive) (by rw [hone]; decide)
      exact ⟨hagrees.dead hdead, hsilent, fun halive => absurd halive (by simp [hdead])⟩
  | taken pid =>
      have hholds : w.Holds := by
        rw [Holds, hping]
        simpa [Lost, hping] using hlost
      obtain ⟨hpinged, hage⟩ := hagrees.taken hholds
      rw [hone] at hage
      have hlate : 1 ≤ h.age := by
        have hbound : 2 ≤ h.age + 1 := hage
        omega
      exact ⟨hpinged, hsilent, fun _ => by simp [History.tick, hholds, hlate]⟩
  | answered => exact absurd hping hanswered

theorem Agrees.timeout (hagrees : Agrees h w) (hprompt : w.Prompt .timeout)
    (hanswered : w.ping ≠ .answered) :
    Agrees (h.update w .timeout) (w.afterInterval kind) := by
  have hcounting : Counting (w.afterInterval kind) := hagrees.toCounting.afterInterval
  rw [afterInterval_eq] at hcounting ⊢
  split_ifs at hcounting ⊢ with hpong hzero
  · -- the next ping is sent
    have hkills : ¬w.Kills := fun hkills => absurd hkills.2.1 (by simp [hpong])
    have hfull := hagrees.full hpong
    have hidle := hagrees.idle.mp hpong
    have hholds : ¬w.Holds := by simp [Holds, hidle]
    simp only [History.update, if_neg hkills, History.tick, if_neg hholds]
    exact {
      toCounting := hcounting
      silence := le_trans hagrees.silence (Nat.add_le_add_right (Nat.le_succ _) _)
      queued := fun _ _ => by
        rw [hfull]
        decide
      taken := nofun
      dead := hagrees.dead }
  · -- the process is replaced
    have hkills : w.Kills := ⟨hanswered, by simpa using hpong, hzero⟩
    have hnew : w.ping ≠ .taken (w.hc.pid + 1) := fun htaken =>
      (hprompt hkills.2.1).1 (by simp [Lost, htaken])
    simp only [History.update, if_pos hkills]
    exact {
      toCounting := hcounting
      silence := Nat.le_add_left _ _
      queued := fun _ _ => by
        change heartbeatLiveness ≠ 1
        decide
      taken := fun hholds => absurd hholds hnew
      dead := nofun }
  · -- one interval less is left
    have hkills : ¬w.Kills := fun hkills => hzero hkills.2.2
    simp only [History.update, if_neg hkills]
    have hless := (hagrees.sub_one hzero).2
    have hsilence := hagrees.silence
    rw [← hless] at hsilence
    exact {
      toCounting := hcounting
      silence := by
        simp only [History.tick]
        omega
      queued := fun hqueued halive => by
        have hfull := (hprompt (by simpa using hpong)).2 hqueued halive
        simp only [hfull]
        decide
      taken := fun hholds => by
        have hold : w.Holds := hholds
        obtain ⟨hpinged, hage⟩ := hagrees.taken hold
        refine ⟨hpinged, ?_⟩
        simp only [History.tick, if_pos hold]
        omega
      dead := hagrees.dead }

/-- **One step keeps the agreement.** -/
theorem Agrees.step (hagrees : Agrees h w) (hprompt : w.Prompt action)
    (hstep : w.step kind action = some w') : Agrees (h.update w action) w' := by
  have hcounting := hagrees.toCounting.step hstep
  cases action with
  | pong =>
      simp only [Watch.step] at hstep
      split_ifs at hstep
      obtain rfl := Option.some.inj hstep
      exact {
        toCounting := hcounting
        silence := Nat.le_add_left _ _
        queued := nofun
        taken := nofun
        dead := hagrees.dead }
  | timeout =>
      simp only [Watch.step] at hstep
      split_ifs at hstep with hanswered
      obtain rfl := Option.some.inj hstep
      exact hagrees.timeout hprompt hanswered
  | deliver =>
      simp only [Watch.step] at hstep
      split_ifs at hstep with hqueued
      obtain rfl := Option.some.inj hstep
      have hleft := hagrees.queued hqueued.1 hqueued.2
      exact {
        toCounting := hcounting
        silence := hagrees.silence
        queued := nofun
        taken := fun _ => ⟨rfl, le_trans (hagrees.two_le hleft) (Nat.le_add_left _ _)⟩
        dead := fun _ => rfl }
  | answer =>
      simp only [Watch.step] at hstep
      split_ifs at hstep with htaken
      obtain rfl := Option.some.inj hstep
      exact {
        toCounting := hcounting
        silence := hagrees.silence
        queued := nofun
        taken := nofun
        dead := hagrees.dead }
  | crash =>
      simp only [Watch.step] at hstep
      split_ifs at hstep with halive
      obtain rfl := Option.some.inj hstep
      exact { hagrees with
        queued := fun _ => nofun
        dead := fun _ => hprompt }

/-! ## Every run -/

/-- The watched run with its history. -/
abbrev stepWithHistory (kind : HealthCheckerKind) :
    Watch × History → WatchAction → Option (Watch × History) :=
  Machine.withGhost (Watch.step kind) fun w action h => h.update w action

/-- **Every kill of a prompt run is justified**, for either health checker. -/
theorem justified_of_prompt (kind : HealthCheckerKind) (actions : List WatchAction)
    (halong : Machine.Along (Watch.step kind) Prompt init actions) :
    Machine.Along (stepWithHistory kind) KillsJustly (init, History.init) actions := by
  apply Machine.along_withGhost (P := Agrees) _ _ agrees_init halong
  · intro w action h w' hagrees hprompt hstep
    exact hagrees.step hprompt hstep
  · intro w action h hagrees hprompt haction hkills
    rw [haction] at hprompt
    exact hagrees.justified hprompt hkills

/-- A process answers a ping and crashes.  It is replaced, and the new one takes the next ping. -/
def crashedRun : List WatchAction :=
  [.deliver, .answer, .pong, .crash, .timeout, .timeout, .timeout, .timeout, .deliver, .answer,
    .pong, .timeout]

theorem justified_of_prompt_crashedRun :
    Machine.Along (stepWithHistory healthCheckerServer) KillsJustly (init, History.init)
      crashedRun :=
  justified_of_prompt healthCheckerServer crashedRun (by decide)

/-- A process crashes between a ping and the pong.  The next one is killed too, although it is
running and no ping was ever delivered to it. -/
theorem restarted_process_killed :
    ¬ Machine.Along (stepWithHistory healthCheckerServer) KillsJustly (init, History.init)
      [.deliver, .crash, .timeout, .timeout, .timeout, .timeout, .timeout, .timeout] := by
  decide

/-! ## A lost ping -/

/-- The process that took the ping has been replaced, and its pong has not come. -/
structure Abandoned (w : Watch) : Prop where
  taken : ∃ pid < w.hc.pid, w.ping = .taken pid
  waiting : w.hc.pongArrived = false

theorem Abandoned.step (habandoned : Abandoned w) (hstep : w.step kind action = some w') :
    Abandoned w' := by
  obtain ⟨⟨pid, hpid, hping⟩, hwaiting⟩ := habandoned
  cases action with
  | pong => simp [Watch.step, hping] at hstep
  | timeout =>
      simp only [Watch.step, hping, reduceCtorEq, if_false, Option.some.injEq] at hstep
      rw [afterInterval_eq, hwaiting, if_neg (by decide)] at hstep
      split_ifs at hstep
      · subst hstep
        exact ⟨⟨pid, hpid.trans (Nat.lt_succ_self _), hping⟩, rfl⟩
      · subst hstep
        exact ⟨⟨pid, hpid, hping⟩, hwaiting⟩
  | deliver => simp [Watch.step, hping] at hstep
  | answer => simp [Watch.step, hping, hpid.ne] at hstep
  | crash =>
      simp only [Watch.step] at hstep
      split_ifs at hstep
      obtain rfl := Option.some.inj hstep
      exact ⟨⟨pid, hpid, hping⟩, hwaiting⟩

/-- **No ping is sent after a lost one**: no process started later ever takes one. -/
theorem abandoned_run {actions : List WatchAction} (habandoned : Abandoned w)
    (hrun : Machine.run (Watch.step kind) w actions = some w') : w'.step kind .deliver = none := by
  have hinvariant : Abandoned w' :=
    Machine.run_invariant (C := fun _ _ => True)
      (fun w action w' habandoned _ hstep => Abandoned.step habandoned hstep) habandoned
      (Machine.along_of_forall (fun _ _ => trivial) w actions) hrun
  obtain ⟨⟨pid, -, hping⟩, -⟩ := hinvariant
  simp [Watch.step, hping]

/-- `HEARTBEAT_LIVENESS` intervals end the process that is running. -/
theorem Abandoned.killed (habandoned : Abandoned w) (hfull : w.hc.hbLiveness = heartbeatLiveness) :
    Machine.run (Watch.step kind) w [.timeout, .timeout, .timeout] =
      some ⟨HealthChecker.init (w.hc.pid + 1), true, false, w.ping⟩ := by
  obtain ⟨⟨pid, hpid, hping⟩, hwaiting⟩ := habandoned
  have hone : heartbeatLiveness - 1 ≠ 0 := by decide
  have htwo : heartbeatLiveness - 1 - 1 ≠ 0 := by decide
  have hthree : heartbeatLiveness - 1 - 1 - 1 = 0 := by decide
  simp [Machine.run, Watch.step, afterInterval_eq, hping, hwaiting, hfull, hone, htwo, hthree]

end ReliableService.Watch
