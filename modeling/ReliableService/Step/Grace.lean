import Mathlib.Tactic.Ring
import ReliableService.Step.Pacing

/-!
# How long a copy is waited for

`check_pong` gives a copy up when its pong has been missing for `LIVENESS` rounds, and rounds
keep their pace.  Put together: once a pong of a copy has reached the broker, the copy is not
declared unreliable for another `LIVENESS` intervals of the heartbeat, however often the poll
wakes up and whatever else arrives (`declared_late`).  The round of the same wake-up is no
exception: `step` reads the dealers before it looks at the deadlines.

The invariant behind it, `Spared`, speaks of the pong, the counter and the deadline together:
either the pong still waits to be counted, or the deadline is as many intervals ahead as rounds
have been lost, and one more.
-/

namespace ReliableService

open ServiceRecord

/-- A call that is no round of the heartbeat. -/
def Event.Roundless (event : Event) : Prop := ∀ i now later, event ≠ .heartbeat i now later

namespace Broker

variable {nmr : UInt8} {b b' : Broker nmr} {i : ℕ} {service : ServiceType} {j : Fin nmr.toNat}
  {start heard : Int} {event : Event} {events : List Event} {record record' : ServiceRecord nmr}
  {deadline deadline' : Timespec} {n : ℕ}

/-- The reading at which a call declares a copy unreliable. -/
def declares (service : ServiceType) (j : Fin nmr.toNat) (b : Broker nmr) : Event → Option Timespec
  | .heartbeat i now _ =>
      if b.Due i now ∧ b.availableServices[i]? = some service ∧
          (b.db.servicesDb service).any fun record => j ∈ record.unreliableUnits then some now
      else none
  | _ => none

/-- When a copy is declared unreliable along a run. -/
def declarations (service : ServiceType) (j : Fin nmr.toNat) (b : Broker nmr) :
    List Moment → List Timespec
  | [] => []
  | moment :: moments =>
      match b.survive moment with
      | none => []
      | some b' => (b.declares service j moment.event).toList ++ declarations service j b' moments

/-- A pong that came at `heard` still counts for the copy. -/
def Spared (heard : Int) (record : ServiceRecord nmr) (j : Fin nmr.toNat) (deadline : Timespec) :
    Prop :=
  record.pongOf j = true ∨ heard + (record.lostOf j + 1) * paceNs ≤ deadline.nanoseconds

theorem Spared.congr (h : Spared heard record j deadline)
    (hpong : record'.pongOf j = record.pongOf j) (hlost : record'.lostOf j = record.lostOf j)
    (hle : deadline.nanoseconds ≤ deadline'.nanoseconds) : Spared heard record' j deadline' := by
  rw [Spared, hpong, hlost]
  exact h.imp_right fun hahead => hahead.trans hle

/-- Everything but a check leaves the copy spared. -/
theorem Spared.afterEvent (h : Spared heard record j deadline) {copyEvent : CopyEvent nmr}
    (hcheck : copyEvent ≠ .check) (hle : deadline.nanoseconds ≤ deadline'.nanoseconds) :
    Spared heard (record.afterEvent copyEvent) j deadline' := by
  cases copyEvent with
  | registration => exact h.congr (pongOf_registration record j) (lostOf_registration record j) hle
  | pong idCopy =>
      by_cases hself : idCopy = j
      · subst hself
        exact .inl (pongOf_registerPong_self record idCopy)
      · exact h.congr (pongOf_registerPong_of_ne record hself) rfl hle
  | check => exact absurd rfl hcheck

/-- A check counts one more lost pong, and the deadline moves on by one interval. -/
theorem Spared.checkPong (h : Spared heard record j deadline) {renewed : Int}
    (hheard : heard ≤ renewed) (hdue : deadline.nanoseconds ≤ renewed)
    (hinstant : deadline'.nanoseconds = renewed + paceNs) :
    Spared heard record.checkPong j deadline' := by
  refine .inr ?_
  rw [lostOf_checkPong, hinstant]
  by_cases hpong : record.pongOf j = true
  · rw [if_pos hpong]
    omega
  · have hahead : heard + (record.lostOf j + 1) * paceNs ≤ renewed :=
      (h.resolve_left hpong).trans hdue
    have hpace : 0 ≤ paceNs := by decide
    rw [if_neg hpong]
    split
    · calc heard + (record.lostOf j + 1 + 1) * paceNs
          = heard + (record.lostOf j + 1) * paceNs + paceNs := by ring
        _ ≤ renewed + paceNs := Int.add_le_add_right hahead _
    · exact hahead.trans (Int.le_add_of_nonneg_right hpace)

/-- A copy that is spared is declared unreliable only after all the intervals. -/
theorem Spared.lt_of_unreliable (h : Spared heard record j deadline)
    (hj : j ∈ record.unreliableUnits) : heard + liveness * paceNs ≤ deadline.nanoseconds := by
  obtain ⟨hpong, hlost⟩ := mem_unreliableUnits.mp hj
  rw [← hlost]
  exact h.resolve_left (by simp [hpong])

/-! ## One call -/

/-- The pong that came at `heard` still counts for copy `j` of the service at position `i`. -/
structure Graced (heard : Int) (i : ℕ) (service : ServiceType) (j : Fin nmr.toNat)
    (b : Broker nmr) : Prop where
  available : b.availableServices[i]? = some service
  spared : ∃ record deadline, b.db.servicesDb service = some record ∧
    b.timeout[i]? = some deadline ∧ Spared heard record j deadline

/-- A check of the service is a round of its position. -/
theorem heartbeat_of_check (htabled : b.Tabled)
    (havailable : b.availableServices[i]? = some service)
    (h : .check ∈ b.copyEvents service event) :
    ∃ now later, event = .heartbeat i now later ∧ b.Due i now ∧
      b.copyEvents service event = [.check] := by
  cases event with
  | registration rm now =>
      rw [copyEvents] at h
      split at h <;> simp at h
  | request c request now later => exact absurd h List.not_mem_nil
  | response index reply c =>
      rw [copyEvents] at h
      split at h
      · split at h <;> simp at h
      · exact absurd h List.not_mem_nil
  | heartbeat k now later =>
      rw [copyEvents] at h ⊢
      split at h
      · rename_i hdue
        obtain rfl : k = i := by
          rw [← idxOf_of_getElem? htabled hdue.2, ← idxOf_of_getElem? htabled havailable]
        exact ⟨now, later, rfl, hdue.1, if_pos hdue⟩
      · exact absurd h List.not_mem_nil
  | sweep now => exact absurd h List.not_mem_nil

/-- What a call means to the copies is at most one operation. -/
theorem copyEvents_cases (b : Broker nmr) (service : ServiceType) (event : Event) :
    b.copyEvents service event = [] ∨ ∃ copyEvent, b.copyEvents service event = [copyEvent] := by
  unfold copyEvents
  split
  · split
    · exact .inr ⟨_, rfl⟩
    · exact .inl rfl
  · exact .inl rfl
  · split
    · split
      · exact .inr ⟨_, rfl⟩
      · exact .inl rfl
    · exact .inl rfl
  · split
    · exact .inr ⟨_, rfl⟩
    · exact .inl rfl
  · exact .inl rfl

/-- A copy is declared unreliable in a round of its position. -/
theorem of_declares (htabled : b.Tabled) (havailable : b.availableServices[i]? = some service)
    {now : Timespec} (h : b.declares service j event = some now) :
    (∃ later, event = .heartbeat i now later) ∧ b.Due i now ∧
      ∃ record, b.db.servicesDb service = some record ∧ j ∈ record.unreliableUnits := by
  cases event with
  | heartbeat k now' later =>
      obtain ⟨⟨hdue, hk, hunits⟩, heq⟩ := Option.ite_none_right_eq_some.mp h
      cases heq
      obtain rfl : k = i := by
        rw [← idxOf_of_getElem? htabled hk, ← idxOf_of_getElem? htabled havailable]
      obtain ⟨record, hrecord, hj⟩ := (Option.any_eq_true _ _).mp hunits
      exact ⟨⟨later, rfl⟩, hdue, record, hrecord, of_decide_eq_true hj⟩
  | registration rm now => cases h
  | request c request now later => cases h
  | response index reply c => cases h
  | sweep now => cases h

/-- The slots are those after the operations the call means. -/
theorem Spared.of_copies {copyEvents : List (CopyEvent nmr)}
    (h : Spared heard (record.afterEvents copyEvents) j deadline)
    (hsame : record'.clearRequests = (record.afterEvents copyEvents).clearRequests) :
    Spared heard record' j deadline :=
  h.congr (congrArg (·.pongOf j) hsame) (congrArg (·.lostOf j) hsame) le_rfl

/-- A call that makes no check spares the copy on. -/
theorem Spared.of_quiet (h : Spared heard record j deadline)
    (hcheck : .check ∉ b.copyEvents service event)
    (hle : deadline.nanoseconds ≤ deadline'.nanoseconds) :
    Spared heard (record.afterEvents (b.copyEvents service event)) j deadline' := by
  rcases copyEvents_cases b service event with hnil | ⟨copyEvent, hone⟩
  · rw [hnil]
    exact h.congr rfl rfl hle
  · rw [hone] at hcheck ⊢
    exact h.afterEvent (fun heq => hcheck (heq ▸ List.mem_singleton_self _)) hle

/-- **One call spares the copy on.** -/
theorem Graced.step (h : Graced heard i service j b) (hheard : heard ≤ start)
    (hclocked : Clocked i start b (event :: events)) {connected : ClientId → Bool}
    (hb' : (b.handle connected event).result = .ok b') :
    (∃ start', heard ≤ start' ∧ Clocked i start' b' events) ∧ Graced heard i service j b' ∧
      ∀ now ∈ b.declares service j event, heard + liveness * paceNs < now.nanoseconds := by
  have htabled : b.Tabled := hclocked.tabled
  have havailable := h.available
  obtain ⟨record, deadline, hrecord, hdeadline, hspared⟩ := h.spared
  obtain ⟨hnormalized, hby⟩ := hclocked.deadline deadline hdeadline
  have havailable' : b'.availableServices[i]? = some service :=
    (keeps_of_handle htabled hb' i service havailable).1
  have heveryone := hb'
  rw [(handle_ok_everyone hb').1] at heveryone
  obtain ⟨record', hrecord', hsame⟩ := copies_of_handle heveryone hrecord
  have hdeclares : ∀ now ∈ b.declares service j event,
      heard + liveness * paceNs < now.nanoseconds := by
    intro now hnow
    obtain ⟨⟨later, rfl⟩, ⟨found, hfound, hcmp⟩, counted, hcounted, hj⟩ :=
      of_declares htabled havailable hnow
    obtain rfl : found = deadline := Option.some.inj (hfound.symm.trans hdeadline)
    obtain rfl : counted = record := Option.some.inj (hcounted.symm.trans hrecord)
    have hnow' := (hclocked.rising.polled now later List.mem_cons_self).1
    rw [timeCmp_eq_sign hnow' hnormalized, Int.sign_eq_one_iff_pos] at hcmp
    exact (hspared.lt_of_unreliable hj).trans_lt (Int.lt_of_sub_pos hcmp)
  rcases hclocked.step hb' with ⟨hnone, htimeout, hnext⟩ | ⟨r, deadline', hrenewal, hrenewed⟩
  · -- no renewal, hence no round and no check
    have hcheck : .check ∉ b.copyEvents service event := by
      intro hcheck
      obtain ⟨now, later, rfl, hdue, -⟩ := heartbeat_of_check htabled havailable hcheck
      rw [renewal, if_pos ⟨rfl, hdue⟩] at hnone
      cases hnone
    exact ⟨⟨start, hheard, hnext⟩, ⟨havailable', record', deadline, hrecord',
      htimeout.trans hdeadline, (hspared.of_quiet hcheck le_rfl).of_copies hsame⟩, hdeclares⟩
  · have hlater : heard ≤ r.renewed.nanoseconds := hheard.trans hrenewed.start_le
    refine ⟨⟨_, hlater, hrenewed.clocked⟩, ⟨havailable', record', deadline', hrecord',
      hrenewed.timeout_eq, ?_⟩, hdeclares⟩
    apply Spared.of_copies _ hsame
    by_cases hcheck : .check ∈ b.copyEvents service event
    · obtain ⟨now, later, rfl, hdue, hone⟩ := heartbeat_of_check htabled havailable hcheck
      rw [renewal, if_pos ⟨rfl, hdue⟩, Option.some.injEq] at hrenewal
      subst hrenewal
      obtain ⟨hnow, hle⟩ := hclocked.rising.polled now later List.mem_cons_self
      obtain ⟨found, hfound, hcmp⟩ := hdue
      obtain rfl : found = deadline := Option.some.inj (hfound.symm.trans hdeadline)
      rw [timeCmp_eq_sign hnow hnormalized, Int.sign_eq_one_iff_pos] at hcmp
      rw [hone]
      exact hspared.checkPong hlater ((Int.lt_of_sub_pos hcmp).le.trans hle) hrenewed.instant
    · have hstart := hrenewed.start_le
      exact hspared.of_quiet hcheck (by rw [hrenewed.instant]; omega)

/-! ## Runs -/

/-- What is left may be counted from any instant that its readings have passed. -/
theorem Clocked.from_instant (h : Clocked i start b events)
    (hle : ∀ t ∈ events.filterMap (Event.reading i), heard ≤ t.nanoseconds) :
    Clocked i (max start heard) b events where
  tabled := h.tabled
  deadline := by
    intro deadline hd
    obtain ⟨hnormalized, hby⟩ := h.deadline deadline hd
    exact ⟨hnormalized, by omega⟩
  rising := by
    refine ⟨h.rising.normalized, List.pairwise_cons.mpr ⟨?_, h.rising.pairwise.of_cons⟩,
      h.rising.polled⟩
    intro later hlater
    have hstart := List.rel_of_pairwise_cons h.rising.pairwise hlater
    obtain ⟨t, ht, rfl⟩ := List.mem_map.mp hlater
    exact max_le hstart (hle t ht)

theorem Clocked.run {moments : List Moment}
    (h : Clocked i start b (moments.map (·.event) ++ events))
    (hb' : (b.run moments).result = .ok b') :
    ∃ start', start ≤ start' ∧ Clocked i start' b' events := by
  induction moments generalizing b start with
  | nil =>
      obtain rfl : b = b' := Except.ok.inj hb'
      exact ⟨start, le_rfl, h⟩
  | cons moment moments ih =>
      rw [Broker.run, List.foldlM_cons, Outcome.bind_result_ok] at hb'
      obtain ⟨t, ht, hb'⟩ := hb'
      rcases h.step ht with ⟨-, -, hnext⟩ | ⟨r, deadline, -, hrenewed⟩
      · exact ih hnext hb'
      · obtain ⟨start', hle, hclocked⟩ := ih hrenewed.clocked hb'
        exact ⟨start', hrenewed.start_le.trans hle, hclocked⟩

theorem Graced.declarations {moments : List Moment} (h : Graced heard i service j b)
    (hheard : heard ≤ start) (hclocked : Clocked i start b (moments.map (·.event))) :
    ∀ now ∈ Broker.declarations service j b moments,
      heard + liveness * paceNs < now.nanoseconds := by
  induction moments generalizing b start with
  | nil => exact fun _ hnow => absurd hnow List.not_mem_nil
  | cons moment moments ih =>
      intro now hnow
      rw [Broker.declarations] at hnow
      cases hsurvive : b.survive moment with
      | none =>
          rw [hsurvive] at hnow
          exact absurd hnow List.not_mem_nil
      | some b' =>
          rw [hsurvive] at hnow
          obtain ⟨⟨start', hle, hnext⟩, hgraced, hfirst⟩ :=
            h.step hheard hclocked (Outcome.toOption_eq_some.mp hsurvive)
          rcases List.mem_append.mp hnow with hnow | hnow
          · exact hfirst now (Option.mem_toList.mp hnow)
          · exact ih hgraced hle hnext now hnow

theorem declares_of_roundless (h : event.Roundless) : b.declares service j event = none := by
  cases event with
  | heartbeat i now later => exact absurd rfl (h i now later)
  | registration rm now => rfl
  | request c request now later => rfl
  | response index reply c => rfl
  | sweep now => rfl

/-- Nothing is declared in a call that is no round. -/
theorem mem_declarations_cons {moment : Moment} (hquiet : moment.event.Roundless)
    {moments : List Moment} {now : Timespec}
    (hnow : now ∈ Broker.declarations service j b (moment :: moments)) :
    ∃ b', (b.handle moment.connected moment.event).result = .ok b' ∧
      now ∈ Broker.declarations service j b' moments := by
  rw [Broker.declarations] at hnow
  cases hsurvive : b.survive moment with
  | none =>
      rw [hsurvive] at hnow
      exact absurd hnow List.not_mem_nil
  | some b' =>
      rw [hsurvive] at hnow
      dsimp only at hnow
      rw [declares_of_roundless hquiet, Option.toList_none, List.nil_append] at hnow
      exact ⟨b', Outcome.toOption_eq_some.mp hsurvive, hnow⟩

theorem mem_declarations_append {first second : List Moment}
    (hquiet : ∀ moment ∈ first, moment.event.Roundless) {now : Timespec}
    (hnow : now ∈ Broker.declarations service j b (first ++ second)) :
    ∃ b', (b.run first).result = .ok b' ∧ now ∈ Broker.declarations service j b' second := by
  induction first generalizing b with
  | nil => exact ⟨b, rfl, hnow⟩
  | cons moment first ih =>
      obtain ⟨t, ht, hnow⟩ := mem_declarations_cons (hquiet moment List.mem_cons_self) hnow
      obtain ⟨b', hb', hnow⟩ := ih (fun m hm => hquiet m (List.mem_cons_of_mem _ hm)) hnow
      refine ⟨b', ?_, hnow⟩
      rw [Broker.run, List.foldlM_cons, Outcome.bind_result_ok]
      exact ⟨t, ht, hb'⟩

theorem available_of_run (htabled : b.Tabled) (hi : b.availableServices[i]? = some service)
    {moments : List Moment} (hb' : (b.run moments).result = .ok b') :
    b'.availableServices[i]? = some service := by
  have hkept := Outcome.foldlM_invariant
    (P := fun t : Broker nmr => t.Tabled ∧ t.availableServices[i]? = some service)
    (fun _ _ _ _ hs ht => ⟨hs.1.handle ht, (keeps_of_handle hs.1 ht i service hs.2).1⟩)
    ⟨htabled, hi⟩ hb'
  exact hkept.2

/-! ## The loop -/

/-- After some wake-ups, the next ones count from their first reading. -/
theorem clocked_of_step {portRouter portReg : UInt16} {before after : List WakeUp} {w : WakeUp}
    (hforward : Forward (before ++ w :: after))
    (hb : ((init portRouter portReg : Broker nmr).step before).result = .ok b) (i : ℕ) :
    ∃ start, w.now.nanoseconds ≤ start ∧
      Clocked i start b ((b.schedule (w :: after)).map (·.event)) := by
  have hlaid : (init portRouter portReg : Broker nmr).Laid 0 := laid_init portRouter portReg
  obtain ⟨start, hrising⟩ :=
    rising_schedule hforward (init portRouter portReg : Broker nmr) i
  rw [schedule_append hb, List.map_append] at hrising
  have hclocked : Clocked i start (init portRouter portReg : Broker nmr)
      (((init portRouter portReg : Broker nmr).schedule before).map (·.event) ++
        (b.schedule (w :: after)).map (·.event)) :=
    ⟨hlaid.tabled, fun _ hd => (Option.some_ne_none _ hd.symm).elim, hrising⟩
  obtain ⟨start', -, hclocked⟩ := hclocked.run (run_schedule hlaid hb)
  refine ⟨_, le_max_right .., hclocked.from_instant fun t ht => ?_⟩
  exact hforward.now_le t ((readings_schedule b i (w :: after)).subset ht)

theorem roundless_of_responseAt {w : WakeUp} {count k : ℕ}
    (h : w.responseAt count k = some event) : event.Roundless := by
  rw [WakeUp.responseAt] at h
  split at h
  · obtain ⟨answer, -, rfl⟩ := Option.map_eq_some_iff.mp h
    rintro _ _ _ ⟨⟩
  · cases h

/-- What comes before a member of the front of a list is in the front. -/
theorem exists_split_of_mem_front {α : Type} {P : α → Prop} {front rest : List α} {x : α}
    (hx : x ∈ front) (hfront : ∀ y ∈ front, P y) :
    ∃ earlier later, front ++ rest = earlier ++ x :: later ∧ ∀ y ∈ earlier, P y := by
  obtain ⟨earlier, later, hsplit⟩ := List.append_of_mem hx
  refine ⟨earlier, later ++ rest, ?_, fun y hy => ?_⟩
  · rw [hsplit, List.append_assoc, List.cons_append]
  · apply hfront
    rw [hsplit]
    exact List.mem_append_left _ hy

/-- A reply that the poll finds at a dealer of its own is received before the rounds. -/
theorem events_of_reply {w : WakeUp} {index before after : ℕ} {reply : ServerReply} {c : ClientId}
    (hreply : w.reply index = some (reply, c)) (hbefore : index < before) (hafter : index < after) :
    ∃ earlier later, w.events before after = earlier ++ .response index reply c :: later ∧
      ∀ event ∈ earlier, event.Roundless := by
  have hresponse : w.responseAt before index = some (.response index reply c) := by
    rw [WakeUp.responseAt, if_pos hbefore, hreply]
    rfl
  rw [WakeUp.events, List.append_assoc]
  apply exists_split_of_mem_front
  · apply List.mem_append_right
    exact List.mem_filterMap.mpr ⟨index, List.mem_range.mpr hafter, hresponse⟩
  · intro event hevent
    rw [List.mem_append, List.mem_append, List.mem_map, List.mem_map, List.mem_filterMap] at hevent
    rcases hevent with (⟨registration, -, rfl⟩ | ⟨request, -, rfl⟩) | ⟨k, -, hk⟩
    · rintro _ _ _ ⟨⟩
    · rintro _ _ _ ⟨⟩
    · exact roundless_of_responseAt hk

theorem moments_of_reply {w : WakeUp} {index : ℕ} {reply : ServerReply} {c : ClientId}
    (hreply : w.reply index = some (reply, c)) (hindex : index < b.dealer.length) :
    ∃ earlier later, b.moments w = earlier ++ w.moment (.response index reply c) :: later ∧
      ∀ moment ∈ earlier, moment.event.Roundless := by
  have hafter : b.dealer.length ≤ b.dealersAfter w := by
    unfold dealersAfter
    split
    · exact le_rfl
    · split
      · exact Nat.le_succ _
      · exact le_rfl
  obtain ⟨earlier, later, hsplit, hquiet⟩ :=
    events_of_reply hreply hindex (Nat.lt_of_lt_of_le hindex hafter)
  refine ⟨earlier.map w.moment, later.map w.moment, ?_, ?_⟩
  · rw [moments, hsplit, List.map_append, List.map_cons]
  · intro moment hmoment
    obtain ⟨event, hevent, rfl⟩ := List.mem_map.mp hmoment
    exact hquiet event hevent

/-- **A copy that has ponged is waited for.**  In every run of the loop whose clock runs forwards:
when a wake-up receives a pong of a copy of an available service, the copy is not declared
unreliable, in this wake-up or a later one, until more than `LIVENESS` heartbeat intervals after
it. -/
theorem declared_late (portRouter portReg : UInt16) {before after : List WakeUp} {w : WakeUp}
    (hforward : Forward (before ++ w :: after))
    (hb : ((init portRouter portReg : Broker nmr).step before).result = .ok b) {index : ℕ}
    {reply : ServerReply} {c : ClientId} (hreply : w.reply index = some (reply, c))
    (hindex : index < b.dealer.length) (hpong : reply.heartbeat = true)
    (havailable : reply.service ∈ b.availableServices) (hj : j.val = reply.id.toNat) :
    ∀ now ∈ declarations reply.service j b (b.schedule (w :: after)),
      w.now.nanoseconds + liveness * paceNs < now.nanoseconds := by
  intro now hnow
  obtain ⟨m, hlaid⟩ := (laid_init portRouter portReg).step hb
  obtain ⟨i, hi, hservice⟩ := List.getElem_of_mem havailable
  have hposition : b.availableServices[i]? = some reply.service :=
    List.getElem?_eq_some_iff.mpr ⟨hi, hservice⟩
  obtain ⟨start, hstart, hclocked⟩ := clocked_of_step hforward hb i
  obtain ⟨earlier, later, hsplit, hquiet⟩ := moments_of_reply hreply hindex
  rw [schedule, hsplit, List.append_assoc, List.cons_append] at hnow hclocked
  rw [List.map_append, List.map_cons] at hclocked
  -- the calls before the pong
  obtain ⟨t, ht, hnow⟩ := mem_declarations_append hquiet hnow
  obtain ⟨start', hle, hclocked⟩ := hclocked.run ht
  have hposition : t.availableServices[i]? = some reply.service :=
    available_of_run hlaid.tabled hposition ht
  -- the pong
  obtain ⟨u, hu, hnow⟩ := mem_declarations_cons (by rintro _ _ _ ⟨⟩) hnow
  rcases hclocked.step hu with ⟨-, -, hclocked⟩ | ⟨r, deadline, hrenewal, -⟩
  · rw [(handle_ok_everyone hu).1] at hu
    change (getResponse everyone t index reply c).result = .ok u at hu
    obtain ⟨record, hrecord, hid, rfl, -⟩ := getResponse_pong_ok hpong hu
    have hdeadline : i < t.timeout.length := by
      rw [hclocked.tabled.timeout_length]
      exact (List.getElem?_eq_some_iff.mp hposition).1
    obtain rfl : j = ⟨reply.id.toNat, hid⟩ := Fin.ext hj
    have hgraced : Graced w.now.nanoseconds i reply.service ⟨reply.id.toNat, hid⟩
        { t with db := t.db.insert reply.service (record.registerPong ⟨reply.id.toNat, hid⟩) } :=
      ⟨hposition, _, _, ServiceDatabase.insert_self .., List.getElem?_eq_getElem hdeadline,
        .inl (pongOf_registerPong_self ..)⟩
    exact hgraced.declarations (hstart.trans hle) hclocked now hnow
  · cases hrenewal

/-- Two copies register. -/
def registeredTwice : List WakeUp :=
  [{ WakeUp.quiet 0 with registration := some (⟨"pippo", 0⟩, ⟨0, 0⟩) },
    { WakeUp.quiet 1 with registration := some (⟨"pippo", 0⟩, ⟨1, 0⟩) }]

/-- A pong of copy `0` is there, and a round is due. -/
def pongedOnce : WakeUp :=
  { WakeUp.quiet 4 with reply := fun _ => some (⟨true, false, 0, 0, 0⟩, pingEnvelope) }

/-- The copy falls silent. -/
def silentSince : List WakeUp := [WakeUp.quiet 7, WakeUp.quiet 10, WakeUp.quiet 13]

theorem forward_silentSince : Forward (registeredTwice ++ pongedOnce :: silentSince) := by
  apply forward_of_instants
  · simp +contextual [registeredTwice, pongedOnce, silentSince, WakeUp.quiet, WakeUp.readings,
      or_imp, eq_comm]
  · simp [registeredTwice, pongedOnce, silentSince, WakeUp.quiet, normalized_of_seconds]
  · simp [registeredTwice, pongedOnce, silentSince, WakeUp.quiet, Timespec.nanoseconds]

def firstSlot : Fin (2 : UInt8).toNat := ⟨0, Nat.zero_lt_two⟩

/-- The copy is given up in the thirteenth second, and not before the tenth. -/
theorem declared_late_silentSince : ∃ b : Broker 2,
    ((init 5559 5555 : Broker 2).step registeredTwice).result = .ok b ∧
      declarations 0 firstSlot b (b.schedule (pongedOnce :: silentSince)) = [⟨13, 0⟩] ∧
      ∀ now ∈ declarations 0 firstSlot b (b.schedule (pongedOnce :: silentSince)),
        pongedOnce.now.nanoseconds + liveness * paceNs < now.nanoseconds := by
  have hrun : ((init 5559 5555 : Broker 2).step registeredTwice).result.toOption.any fun b =>
      0 < b.dealer.length ∧ (0 : ServiceType) ∈ b.availableServices ∧
        declarations 0 firstSlot b (b.schedule (pongedOnce :: silentSince)) = [⟨13, 0⟩] := by
    decide +kernel
  obtain ⟨b, hb, hfacts⟩ := (Option.any_eq_true _ _).mp hrun
  have hb := Outcome.toOption_eq_some.mp hb
  obtain ⟨hindex, havailable, hdeclared⟩ := of_decide_eq_true hfacts
  exact ⟨b, hb, hdeclared,
    declared_late 5559 5555 forward_silentSince hb rfl hindex rfl havailable rfl⟩

end Broker

end ReliableService
