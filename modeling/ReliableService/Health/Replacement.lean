import ReliableService.Health.Restarts

/-!
# How long until a process is replaced

A process that has ended is replaced after at most `HEARTBEAT_LIVENESS + 1` intervals, and `left`
says after how many: the `hb_liveness` that is left if the ping is out, and one interval more if
the next ping has not been sent.  No action of anybody lengthens this, and only the end of an
interval shortens it (`replaced_iff`).

The other side of it is a ping that is lost.  From then on the same count runs over processes that
are well: one of them is killed every `HEARTBEAT_LIVENESS` intervals for ever, whatever they do
(`killed_of_abandoned`).
-/

namespace ReliableService.Watch

variable {kind : HealthCheckerKind} {w w' : Watch} {action : WatchAction}

/-- Nobody gets a `pid` back. -/
theorem pid_le_of_step (hstep : w.step kind action = some w') : w.hc.pid ≤ w'.hc.pid := by
  cases action with
  | timeout =>
      simp only [Watch.step] at hstep
      split_ifs at hstep
      obtain rfl := Option.some.inj hstep
      rw [afterInterval_eq]
      split_ifs
      · exact le_rfl
      · exact Nat.le_succ _
      · exact le_rfl
  | pong | deliver | answer | crash =>
      simp only [Watch.step] at hstep
      split_ifs at hstep
      obtain rfl := Option.some.inj hstep
      exact le_rfl

theorem pid_le_of_run {actions : List WatchAction}
    (hrun : Machine.run (Watch.step kind) w actions = some w') : w.hc.pid ≤ w'.hc.pid :=
  Machine.run_invariant (P := fun t => w.hc.pid ≤ t.hc.pid) (C := fun _ _ => True)
    (fun _ _ _ h _ hstep => h.trans (pid_le_of_step hstep)) le_rfl
    (Machine.along_of_forall (fun _ _ => trivial) w actions) hrun

/-! ## A process that has ended -/

/-- The intervals that have to end before a process that has ended is replaced. -/
def left (w : Watch) : ℕ :=
  match w.ping with
  | .idle => heartbeatLiveness.toNat + 1
  | .answered => heartbeatLiveness.toNat + 1
  | .queued => w.hc.hbLiveness.toNat
  | .taken _ => w.hc.hbLiveness.toNat

theorem Counting.left_bounds (h : Counting w) :
    1 ≤ w.left ∧ w.left ≤ heartbeatLiveness.toNat + 1 := by
  have hlevel : 1 ≤ w.hc.hbLiveness.toNat ∧
      w.hc.hbLiveness.toNat ≤ heartbeatLiveness.toNat + 1 := by
    rcases h.level with hlevel | hlevel | hlevel <;> rw [hlevel] <;> decide
  unfold left
  cases w.ping with
  | idle => exact ⟨Nat.le_add_left .., le_rfl⟩
  | answered => exact ⟨Nat.le_add_left .., le_rfl⟩
  | queued => exact hlevel
  | taken pid => exact hlevel

/-- The ping is out: it has been sent, and there is no pong. -/
def Out (w : Watch) : Prop := w.ping = .queued ∨ ∃ pid, w.ping = .taken pid

theorem Out.left_eq (h : w.Out) : w.left = w.hc.hbLiveness.toNat := by
  unfold left
  rcases h with hping | ⟨pid, hping⟩ <;> rw [hping]

theorem Counting.out (h : Counting w) (hpong : w.hc.pongArrived = false)
    (hanswered : w.ping ≠ .answered) : w.Out := by
  cases hping : w.ping with
  | idle => exact absurd (h.idle.mpr hping) (by rw [hpong]; decide)
  | answered => exact absurd hping hanswered
  | queued => exact .inl hping
  | taken pid => exact .inr ⟨pid, hping⟩

/-- An interval ends: the process is replaced, or one interval less is left. -/
theorem Counting.left_afterInterval (kind : HealthCheckerKind) (h : Counting w)
    (hanswered : w.ping ≠ .answered) :
    (w.left = 1 ∧ (w.afterInterval kind).hc.pid = w.hc.pid + 1) ∨
      ((w.afterInterval kind).hc.pid = w.hc.pid ∧ (w.afterInterval kind).alive = w.alive ∧
        w.left = (w.afterInterval kind).left + 1) := by
  rw [afterInterval_eq]
  split_ifs with hpong hzero
  · right
    refine ⟨rfl, rfl, ?_⟩
    show w.left = w.hc.hbLiveness.toNat + 1
    rw [h.full hpong, left, h.idle.mp hpong]
  · have hout := h.out (by simpa using hpong) hanswered
    have hlast : w.hc.hbLiveness.toNat = 1 := by rw [h.last hzero]; rfl
    exact .inl ⟨hout.left_eq.trans hlast, rfl⟩
  · have hout := h.out (by simpa using hpong) hanswered
    refine .inr ⟨rfl, rfl, ?_⟩
    have hout' : Out { w with hc := { w.hc with hbLiveness := w.hc.hbLiveness - 1 } } := hout
    rw [hout.left_eq, hout'.left_eq, (h.sub_one hzero).2]

/-- **One step without a process**: it stays away and only the end of an interval is counted, or it
is replaced at the end of the last one. -/
theorem Counting.left_step (h : Counting w) (hdead : w.alive = false)
    (hstep : w.step kind action = some w') :
    (action = .timeout ∧ w.left = 1 ∧ w.hc.pid < w'.hc.pid) ∨
      (w'.hc.pid = w.hc.pid ∧ w'.alive = false ∧
        w.left = w'.left + if action = .timeout then 1 else 0) := by
  cases action with
  | pong =>
      simp only [Watch.step] at hstep
      split_ifs at hstep with hanswered
      obtain rfl := Option.some.inj hstep
      refine .inr ⟨rfl, hdead, ?_⟩
      rw [left, hanswered]
      rfl
  | timeout =>
      simp only [Watch.step] at hstep
      split_ifs at hstep with hanswered
      obtain rfl := Option.some.inj hstep
      rcases h.left_afterInterval kind hanswered with ⟨hlast, hpid⟩ | ⟨hpid, halive, hless⟩
      · exact .inl ⟨rfl, hlast, hpid ▸ Nat.lt_succ_self _⟩
      · exact .inr ⟨hpid, halive.trans hdead, by rw [if_pos rfl]; exact hless⟩
  | deliver => simp [Watch.step, hdead] at hstep
  | answer => simp [Watch.step, hdead] at hstep
  | crash => simp [Watch.step, hdead] at hstep

theorem Counting.pid_lt_iff (h : Counting w) (hdead : w.alive = false)
    {actions : List WatchAction} (hrun : Machine.run (Watch.step kind) w actions = some w') :
    w.hc.pid < w'.hc.pid ↔ w.left ≤ actions.count .timeout := by
  induction actions generalizing w with
  | nil =>
      obtain rfl : w = w' := Option.some.inj hrun
      have hpos := h.left_bounds.1
      rw [List.count_nil]
      omega
  | cons action actions ih =>
      obtain ⟨u, hu, hrest⟩ := Machine.run_cons_eq_some.mp hrun
      rw [List.count_cons]
      rcases h.left_step hdead hu with ⟨rfl, hlast, hpid⟩ | ⟨hpid, halive, hless⟩
      · rw [hlast]
        exact iff_of_true (hpid.trans_le (pid_le_of_run hrest)) (by simp)
      · rw [← hpid, ih (h.step hu) halive hrest, hless]
        by_cases htimeout : action = .timeout
        · simp [htimeout]
        · simp [htimeout]

/-- **A process that has ended is replaced after `left` intervals**, of which there are at most
`HEARTBEAT_LIVENESS + 1`, whatever else happens meanwhile. -/
theorem replaced_iff (kind : HealthCheckerKind) {before actions : List WatchAction}
    (hbefore : Machine.run (Watch.step kind) init before = some w) (hdead : w.alive = false)
    (hrun : Machine.run (Watch.step kind) w actions = some w') :
    w.left ≤ heartbeatLiveness.toNat + 1 ∧
      (w.hc.pid < w'.hc.pid ↔ w.left ≤ actions.count .timeout) :=
  have hcounting := counting_init.run hbefore
  ⟨hcounting.left_bounds.2, hcounting.pid_lt_iff hdead hrun⟩

/-- A process that has answered its first ping crashes, and four intervals end. -/
theorem replaced_iff_answered :
    ∃ w w', Machine.run (Watch.step healthCheckerServer) init [.deliver, .answer, .crash] = some w ∧
      Machine.run (Watch.step healthCheckerServer) w
        [.pong, .timeout, .timeout, .timeout, .timeout] = some w' ∧
      w.left ≤ 4 ∧ (w.hc.pid < w'.hc.pid ↔ w.left ≤ 4) := by
  have hbefore : Machine.run (Watch.step healthCheckerServer) init [.deliver, .answer, .crash] =
      some ⟨HealthChecker.init 0, false, true, .answered⟩ := rfl
  have hrun : Machine.run (Watch.step healthCheckerServer)
      ⟨HealthChecker.init 0, false, true, .answered⟩
      [.pong, .timeout, .timeout, .timeout, .timeout] =
        some ⟨HealthChecker.init 1, true, false, .queued⟩ := rfl
  exact ⟨_, _, hbefore, hrun, replaced_iff healthCheckerServer hbefore rfl hrun⟩

/-! ## A ping that is lost -/

/-- Processes and intervals, on one scale. -/
def rank (w : Watch) : ℕ :=
  heartbeatLiveness.toNat * w.hc.pid + (heartbeatLiveness.toNat - w.hc.hbLiveness.toNat)

theorem Counting.rank_afterInterval (h : Counting w) (hwaiting : w.hc.pongArrived = false) :
    (w.afterInterval kind).rank = w.rank + 1 := by
  rw [afterInterval_eq, if_neg (by simp [hwaiting])]
  split_ifs with hzero
  · have hlast : w.hc.hbLiveness.toNat = 1 := by rw [h.last hzero]; rfl
    have hliveness : heartbeatLiveness.toNat = 3 := rfl
    simp only [rank, HealthChecker.init, hlast, hliveness]
    omega
  · obtain ⟨hlevel, hless⟩ := h.sub_one hzero
    have hbound : w.hc.hbLiveness.toNat ≤ heartbeatLiveness.toNat := by
      rcases h.level with hlevel | hlevel | hlevel <;> rw [hlevel] <;> decide
    simp only [rank]
    omega

theorem rank_step (h : Abandoned w ∧ Counting w) (hstep : w.step kind action = some w') :
    w'.rank = w.rank + if action == .timeout then 1 else 0 := by
  obtain ⟨⟨⟨pid, hpid, hping⟩, hwaiting⟩, hcounting⟩ := h
  cases action with
  | timeout =>
      simp only [Watch.step, hping, reduceCtorEq, if_false, Option.some.injEq] at hstep
      rw [← hstep]
      exact hcounting.rank_afterInterval hwaiting
  | pong => simp [Watch.step, hping] at hstep
  | deliver => simp [Watch.step, hping] at hstep
  | answer => simp [Watch.step, hping, hpid.ne] at hstep
  | crash =>
      simp only [Watch.step] at hstep
      split_ifs at hstep
      obtain rfl := Option.some.inj hstep
      rfl

/-- **After a lost ping a process is killed every `HEARTBEAT_LIVENESS` intervals**, whatever the
processes do: so many of them have been started since as intervals have ended, counted from the
last time one was. -/
theorem killed_of_abandoned (kind : HealthCheckerKind) {before actions : List WatchAction}
    (hbefore : Machine.run (Watch.step kind) init before = some w) (habandoned : w.Abandoned)
    (hrun : Machine.run (Watch.step kind) w actions = some w') :
    w'.hc.pid = w.hc.pid + (actions.count .timeout +
      (heartbeatLiveness.toNat - w.hc.hbLiveness.toNat)) / heartbeatLiveness.toNat := by
  have hstart := counting_init.run hbefore
  have hend := (hstart.run hrun).level
  have hrank : w'.rank = w.rank + actions.countP (· == .timeout) :=
    Machine.run_count (P := fun w => Abandoned w ∧ Counting w) (p := (· == .timeout))
      (fun _ _ _ h hstep => ⟨h.1.step hstep, h.2.step hstep⟩)
      (fun _ _ _ h hstep => rank_step h hstep) ⟨habandoned, hstart⟩ hrun
  have hlevel : heartbeatLiveness.toNat - w'.hc.hbLiveness.toNat < heartbeatLiveness.toNat := by
    rcases hend with hend | hend | hend <;> rw [hend] <;> decide
  have hliveness : heartbeatLiveness.toNat = 3 := rfl
  rw [List.count_eq_countP]
  simp only [rank, hliveness] at hrank hlevel ⊢
  omega

/-- A process crashes with a ping in its hands.  Three intervals later there is a new one, and six
intervals after that the second one after it, although no other has crashed. -/
theorem killed_of_abandoned_crashed :
    ∃ w w', Machine.run (Watch.step healthCheckerServer) init
        [.deliver, .crash, .timeout, .timeout, .timeout] = some w ∧
      Machine.run (Watch.step healthCheckerServer) w (List.replicate 6 .timeout) = some w' ∧
      w'.hc.pid = w.hc.pid + 2 := by
  have hbefore : Machine.run (Watch.step healthCheckerServer) init
      [.deliver, .crash, .timeout, .timeout, .timeout] =
        some ⟨HealthChecker.init 1, true, false, .taken 0⟩ := rfl
  have hrun : Machine.run (Watch.step healthCheckerServer)
      ⟨HealthChecker.init 1, true, false, .taken 0⟩ (List.replicate 6 .timeout) =
        some ⟨HealthChecker.init 3, true, false, .taken 0⟩ := rfl
  have habandoned : Abandoned ⟨HealthChecker.init 1, true, false, .taken 0⟩ :=
    ⟨⟨0, Nat.zero_lt_one, rfl⟩, rfl⟩
  exact ⟨_, _, hbefore, hrun, killed_of_abandoned healthCheckerServer hbefore habandoned hrun⟩

end ReliableService.Watch
