import ReliableService.Step.Schedules
import ReliableService.Copies.Traces
import ReliableService.Timing.Deadlines

/-!
# The pace of the heartbeats

Three things set the deadline of a position: its service becomes available, a request for it is
forwarded, a round of pings goes out.  `renewals` lists them along a run, with the reading of the
clock that decides on each and the one the new deadline is counted from.  `timeout_handle` says
that nothing else touches the deadline.

If the clock runs forwards, a round of pings comes more than `HEARTBEAT_INTERVAL` after everything
that has renewed the deadline before it (`rounds_paced`).  So the copies of a service are never
pinged faster than that, and while requests for it keep coming they are not pinged at all.
-/

namespace ReliableService

/-- A deadline is set. -/
structure Renewal where
  /-- By a round of pings. -/
  round : Bool
  /-- The reading that decides on it. -/
  now : Timespec
  /-- The reading the deadline is counted from. -/
  renewed : Timespec
  deriving DecidableEq, Repr

/-- The reading of the clock from which a call may set the deadline of position `i`. -/
def Event.reading (i : ℕ) : Event → Option Timespec
  | .registration _ now => some now
  | .request _ _ _ later => some later
  | .response _ _ _ => none
  | .heartbeat j _ later => if j = i then some later else none
  | .sweep _ => none

namespace Broker

variable {nmr : UInt8} {b b' : Broker nmr} {i : ℕ}

/-- What a call does to the deadline of position `i`. -/
def renewal (b : Broker nmr) (i : ℕ) : Event → Option Renewal
  | .registration rm now =>
      if b.Completes rm ∧ i = b.availableServices.length then some ⟨false, now, now⟩ else none
  | .request _ request now later =>
      if b.availableServices[i]? = some request.service then some ⟨false, now, later⟩ else none
  | .response _ _ _ => none
  | .heartbeat j now later => if j = i ∧ b.Due i now then some ⟨true, now, later⟩ else none
  | .sweep _ => none

/-- What happens to the deadline of position `i` along a run. -/
def renewals (i : ℕ) (b : Broker nmr) : List Moment → List Renewal
  | [] => []
  | moment :: moments =>
      match b.survive moment with
      | none => []
      | some b' => (b.renewal i moment.event).toList ++ renewals i b' moments

/-! ## One call -/

theorem idxOf_of_getElem? (htabled : b.Tabled) {service : ServiceType}
    (h : b.availableServices[i]? = some service) : b.availableServices.idxOf service = i := by
  obtain ⟨hlt, hget⟩ := List.getElem?_eq_some_iff.mp h
  rw [← hget]
  exact htabled.nodup.idxOf_getElem i hlt

theorem getElem?_of_idxOf (htabled : b.Tabled) {service : ServiceType}
    (hlt : b.availableServices.idxOf service < b.timeout.length) :
    b.availableServices[b.availableServices.idxOf service]? = some service := by
  rw [htabled.timeout_length] at hlt
  rw [List.getElem?_eq_getElem hlt, List.getElem_idxOf hlt]

theorem timeout_registration (htabled : b.Tabled) {rm : RegistrationModule} {now : Timespec}
    (hb' : (b.handle everyone (.registration rm now)).result = .ok b') (i : ℕ) :
    b'.timeout[i]? = if b.Completes rm ∧ i = b.availableServices.length then
      some (timeAddMs now heartbeatInterval) else b.timeout[i]? := by
  rw [handle_registration_ok hb']
  by_cases hcompletes : b.Completes rm
  · rw [if_pos hcompletes]
    show (b.timeout ++ [timeAddMs now heartbeatInterval])[i]? = _
    by_cases hi : i = b.availableServices.length
    · rw [if_pos ⟨hcompletes, hi⟩, hi, ← htabled.timeout_length,
        List.getElem?_append_right le_rfl, Nat.sub_self]
      rfl
    · rw [if_neg fun h => hi h.2]
      rw [← htabled.timeout_length] at hi
      rcases Nat.lt_or_gt_of_ne hi with hlt | hgt
      · exact List.getElem?_append_left hlt
      · rw [List.getElem?_eq_none (by simp; omega), List.getElem?_eq_none (by omega)]
  · rw [if_neg hcompletes, if_neg fun h => hcompletes h.1]
    rfl

theorem timeout_getRequest (htabled : b.Tabled) {c : ClientId} {request : RequestModule}
    {now later : Timespec} (hb' : (getRequest everyone b c request now later).result = .ok b')
    (i : ℕ) : b'.timeout[i]? = if b.availableServices[i]? = some request.service then
      some (timeAddMs later heartbeatInterval) else b.timeout[i]? := by
  cases hrecord : b.db.servicesDb request.service with
  | none =>
      rw [getRequest_of_none hrecord] at hb'
      rw [← Except.ok.inj hb', if_neg]
      intro hi
      exact htabled.registered _ (List.mem_of_getElem? hi) hrecord
  | some record =>
      obtain ⟨-, hlt, -, rfl⟩ := getRequest_ok hrecord hb'
      show (b.timeout.set _ _)[i]? = _
      by_cases hi : b.availableServices[i]? = some request.service
      · rw [if_pos hi, idxOf_of_getElem? htabled hi, List.getElem?_set_self]
        rw [← idxOf_of_getElem? htabled hi]
        exact hlt
      · rw [if_neg hi, List.getElem?_set_ne]
        rintro rfl
        exact hi (getElem?_of_idxOf htabled hlt)

theorem timeout_heartbeat (htabled : b.Tabled) {j : ℕ} {now later : Timespec}
    (hb' : (b.heartbeat j now later).result = .ok b') (i : ℕ) :
    b'.timeout[i]? = if j = i ∧ b.Due i now then some (timeAddMs later heartbeatInterval)
      else b.timeout[i]? := by
  by_cases hdue : b.Due j now
  · obtain ⟨service, record, hservice, -, rfl, -⟩ := heartbeat_ok hdue hb'
    show (b.timeout.set _ _)[i]? = _
    rw [idxOf_of_getElem? htabled hservice]
    by_cases hij : j = i
    · subst hij
      have hlt : j < b.timeout.length := by
        obtain ⟨deadline, hdeadline, -⟩ := hdue
        exact (List.getElem?_eq_some_iff.mp hdeadline).1
      rw [if_pos ⟨rfl, hdue⟩, List.getElem?_set_self hlt]
    · rw [if_neg fun h => hij h.1, List.getElem?_set_ne hij]
  · rw [heartbeat_of_not_due hdue] at hb'
    rw [← Except.ok.inj hb', if_neg]
    rintro ⟨rfl, hdue'⟩
    exact hdue hdue'

/-- **What a call does to a deadline.** -/
theorem timeout_handle (htabled : b.Tabled) {connected : ClientId → Bool} {event : Event}
    (hb' : (b.handle connected event).result = .ok b') (i : ℕ) :
    b'.timeout[i]? = (b.renewal i event).elim b.timeout[i]?
      fun r => some (timeAddMs r.renewed heartbeatInterval) := by
  rw [(handle_ok_everyone hb').1] at hb'
  cases event with
  | registration rm now =>
      rw [timeout_registration htabled hb', renewal]
      split_ifs <;> rfl
  | request c request now later =>
      rw [timeout_getRequest htabled hb', renewal]
      split_ifs <;> rfl
  | response index reply c =>
      change (getResponse everyone b index reply c).result = .ok b' at hb'
      rcases getResponse_writes hb' with rfl | ⟨record, newPong, records, -, rfl⟩
      · rfl
      · rfl
  | heartbeat j now later =>
      rw [timeout_heartbeat htabled hb', renewal]
      split_ifs <;> rfl
  | sweep now =>
      change (checkPendingRequests everyone b now).result = .ok b' at hb'
      obtain ⟨db, -, rfl⟩ := checkPendingRequests_ok hb'
      rfl

/-- A renewal is counted from the reading its call makes. -/
theorem reading_of_renewal {event : Event} {r : Renewal} (h : b.renewal i event = some r) :
    event.reading i = some r.renewed := by
  cases event with
  | registration rm now =>
      obtain ⟨-, heq⟩ := Option.ite_none_right_eq_some.mp h
      cases heq
      rfl
  | request c request now later =>
      obtain ⟨-, heq⟩ := Option.ite_none_right_eq_some.mp h
      cases heq
      rfl
  | response index reply c => cases h
  | heartbeat j now later =>
      obtain ⟨⟨rfl, -⟩, heq⟩ := Option.ite_none_right_eq_some.mp h
      cases heq
      exact if_pos rfl
  | sweep now => cases h

/-- A round comes after the deadline. -/
theorem lt_of_round {event : Event} {r : Renewal} {deadline : Timespec}
    (h : b.renewal i event = some r) (hround : r.round = true) (hnow : r.now.Normalized)
    (hdeadline : b.timeout[i]? = some deadline) (hnormalized : deadline.Normalized) :
    deadline.nanoseconds < r.now.nanoseconds := by
  cases event with
  | registration rm now =>
      obtain ⟨-, heq⟩ := Option.ite_none_right_eq_some.mp h
      cases heq
      cases hround
  | request c request now later =>
      obtain ⟨-, heq⟩ := Option.ite_none_right_eq_some.mp h
      cases heq
      cases hround
  | response index reply c => cases h
  | heartbeat j now later =>
      obtain ⟨⟨rfl, found, hfound, hcmp⟩, heq⟩ := Option.ite_none_right_eq_some.mp h
      cases heq
      obtain rfl : found = deadline := Option.some.inj (hfound.symm.trans hdeadline)
      rw [timeCmp_eq_sign hnow hnormalized, Int.sign_eq_one_iff_pos] at hcmp
      exact Int.lt_of_sub_pos hcmp
  | sweep now => cases h

/-! ## Runs -/

/-- The interval between two rounds, in nanoseconds. -/
def paceNs : Int := heartbeatInterval * 1000000

/-- A round after `r` comes more than the interval later. -/
def Paced (r r' : Renewal) : Prop :=
  r'.round = true → r.renewed.nanoseconds + paceNs < r'.now.nanoseconds

/-- The readings that concern position `i` are normalized and go forwards from `start`. -/
structure Rising (i : ℕ) (start : Int) (events : List Event) : Prop where
  normalized : ∀ t ∈ events.filterMap (Event.reading i), t.Normalized
  pairwise : (start :: (events.filterMap (Event.reading i)).map Timespec.nanoseconds).Pairwise
    (· ≤ ·)
  polled : ∀ now later, .heartbeat i now later ∈ events →
    now.Normalized ∧ now.nanoseconds ≤ later.nanoseconds

theorem Rising.tail {start : Int} {event : Event} {events : List Event}
    (h : Rising i start (event :: events)) (hnone : event.reading i = none) :
    Rising i start events where
  normalized := by
    have hall := h.normalized
    rwa [List.filterMap_cons_none hnone] at hall
  pairwise := by
    have hall := h.pairwise
    rwa [List.filterMap_cons_none hnone] at hall
  polled now later hmem := h.polled now later (List.mem_cons_of_mem event hmem)

/-- After a reading, everything goes forwards from it. -/
theorem Rising.from_reading {start : Int} {event : Event} {events : List Event} {t : Timespec}
    (h : Rising i start (event :: events)) (ht : event.reading i = some t) :
    t.Normalized ∧ start ≤ t.nanoseconds ∧ Rising i t.nanoseconds events := by
  have hall := h.normalized
  have hpairwise := h.pairwise
  rw [List.filterMap_cons_some ht] at hall hpairwise
  rw [List.map_cons] at hpairwise
  refine ⟨hall t List.mem_cons_self, ?_, ?_, hpairwise.of_cons, ?_⟩
  · exact List.rel_of_pairwise_cons hpairwise List.mem_cons_self
  · exact fun t' ht' => hall t' (List.mem_cons_of_mem t ht')
  · exact fun now later hmem => h.polled now later (List.mem_cons_of_mem event hmem)

/-- The readings that are left go forwards as well, whether this one sets the deadline or not. -/
theorem Rising.rest {start : Int} {event : Event} {events : List Event}
    (h : Rising i start (event :: events)) : Rising i start events := by
  cases ht : event.reading i with
  | none => exact h.tail ht
  | some t =>
      obtain ⟨-, hle, hrest⟩ := h.from_reading ht
      refine ⟨hrest.normalized, List.pairwise_cons.mpr ⟨?_, hrest.pairwise.of_cons⟩, hrest.polled⟩
      intro later hlater
      exact hle.trans (List.rel_of_pairwise_cons hrest.pairwise hlater)

theorem Rising.normalized_now {start : Int} {event : Event} {events : List Event} {r : Renewal}
    (h : Rising i start (event :: events)) (hr : b.renewal i event = some r)
    (hround : r.round = true) : r.now.Normalized := by
  cases event with
  | registration rm now =>
      obtain ⟨-, heq⟩ := Option.ite_none_right_eq_some.mp hr
      cases heq
      cases hround
  | request c request now later =>
      obtain ⟨-, heq⟩ := Option.ite_none_right_eq_some.mp hr
      cases heq
      cases hround
  | response index reply c => cases hr
  | heartbeat j now later =>
      obtain ⟨⟨rfl, -⟩, heq⟩ := Option.ite_none_right_eq_some.mp hr
      cases heq
      exact (h.polled now later List.mem_cons_self).1
  | sweep now => cases hr

/-- The deadline of position `i`, if there is one, lies at most an interval after `start`. -/
def DeadlineBy (b : Broker nmr) (i : ℕ) (start : Int) : Prop :=
  ∀ deadline, b.timeout[i]? = some deadline →
    deadline.Normalized ∧ deadline.nanoseconds ≤ start + paceNs

/-- The tables, the deadline of position `i` and the readings to come fit together. -/
structure Clocked (i : ℕ) (start : Int) (b : Broker nmr) (events : List Event) : Prop where
  tabled : b.Tabled
  deadline : b.DeadlineBy i start
  rising : Rising i start events

/-- What a call leaves when it has renewed the deadline. -/
structure Renewed (i : ℕ) (start : Int) (b' : Broker nmr) (events : List Event) (r : Renewal)
    (deadline : Timespec) : Prop where
  start_le : start ≤ r.renewed.nanoseconds
  timeout_eq : b'.timeout[i]? = some deadline
  normalized : deadline.Normalized
  instant : deadline.nanoseconds = r.renewed.nanoseconds + paceNs
  clocked : Clocked i r.renewed.nanoseconds b' events

/-- **One call** renews the deadline or leaves it alone. -/
theorem Clocked.step {start : Int} {event : Event} {events : List Event}
    (h : Clocked i start b (event :: events)) {connected : ClientId → Bool}
    (hb' : (b.handle connected event).result = .ok b') :
    (b.renewal i event = none ∧ b'.timeout[i]? = b.timeout[i]? ∧ Clocked i start b' events) ∨
      ∃ r deadline, b.renewal i event = some r ∧ Renewed i start b' events r deadline := by
  have htimeout := timeout_handle h.tabled hb' i
  have htabled : b'.Tabled := h.tabled.handle hb'
  cases hrenewal : b.renewal i event with
  | none =>
      rw [hrenewal, Option.elim_none] at htimeout
      refine .inl ⟨rfl, htimeout, htabled, ?_, h.rising.rest⟩
      intro deadline hd
      exact h.deadline deadline (htimeout ▸ hd)
  | some r =>
      rw [hrenewal, Option.elim_some] at htimeout
      obtain ⟨hr, hstart, hrest⟩ := h.rising.from_reading (reading_of_renewal hrenewal)
      -- the new deadline is counted from the reading
      have hexact : ExactDeadline r.renewed heartbeatInterval := (exactDeadline_broker hr).1
      refine .inr ⟨r, _, rfl, hstart, htimeout, hexact.normalized, hexact.instant, htabled, ?_,
        hrest⟩
      intro deadline hd
      obtain rfl := Option.some.inj (htimeout.symm.trans hd)
      exact ⟨hexact.normalized, hexact.instant.le⟩

theorem paced_run {start : Int} {moments : List Moment}
    (h : Clocked i start b (moments.map (·.event))) :
    (renewals i b moments).Pairwise Paced ∧
      ∀ deadline, b.timeout[i]? = some deadline → ∀ r ∈ renewals i b moments, r.round = true →
        deadline.nanoseconds < r.now.nanoseconds := by
  induction moments generalizing b start with
  | nil => exact ⟨List.Pairwise.nil, fun _ _ r hr => absurd hr List.not_mem_nil⟩
  | cons moment moments ih =>
      rw [renewals]
      cases hsurvive : b.survive moment with
      | none => exact ⟨List.Pairwise.nil, fun _ _ r hr => absurd hr List.not_mem_nil⟩
      | some b' =>
          dsimp only
          rcases h.step (Outcome.toOption_eq_some.mp hsurvive) with
            ⟨hnone, htimeout, hclocked⟩ | ⟨r, next, hrenewal, hrenewed⟩
          · rw [hnone, Option.toList_none, List.nil_append, ← htimeout]
            exact ih hclocked
          · obtain ⟨hpairwise, hafter⟩ := ih hrenewed.clocked
            have hlater : ∀ r' ∈ renewals i b' moments, Paced r r' := by
              intro r' hr' hround
              rw [← hrenewed.instant]
              exact hafter next hrenewed.timeout_eq r' hr' hround
            rw [hrenewal, Option.toList_some, List.singleton_append]
            refine ⟨List.pairwise_cons.mpr ⟨hlater, hpairwise⟩, ?_⟩
            intro deadline hd r' hr' hround
            obtain ⟨hnormalized, hle⟩ := h.deadline deadline hd
            rcases List.mem_cons.mp hr' with rfl | hr'
            · exact lt_of_round hrenewal hround (h.rising.normalized_now hrenewal hround) hd
                hnormalized
            · have hpaced := hlater r' hr' hround
              have hstart := hrenewed.start_le
              omega

end Broker

/-! ## The clock of the loop -/

/-- The readings of a wake-up, in the order in which they are made, with that for position `i`. -/
def WakeUp.readings (i : ℕ) (w : WakeUp) : List Timespec :=
  [w.now] ++ w.registration.toList.map (·.2) ++
    (w.request.toList.flatMap fun (_, _, now, later) => [now, later]) ++ [w.renewed i] ++ [w.swept]

/-- The clock of the loop runs forwards. -/
structure Forward (wakeUps : List WakeUp) : Prop where
  normalized : ∀ i, ∀ t ∈ wakeUps.flatMap (·.readings i), t.Normalized
  pairwise : ∀ i, (wakeUps.flatMap (·.readings i)).Pairwise fun t t' =>
    t.nanoseconds ≤ t'.nanoseconds

/-- The first reading of a wake-up is the earliest one, here and in what follows. -/
theorem Forward.now_le {i : ℕ} {before after : List WakeUp} {w : WakeUp}
    (h : Forward (before ++ w :: after)) :
    ∀ t ∈ (w :: after).flatMap (·.readings i), w.now.nanoseconds ≤ t.nanoseconds := by
  have hpairwise := h.pairwise i
  rw [List.flatMap_append] at hpairwise
  have hrest := (List.pairwise_append.mp hpairwise).2.1
  have hhead : (w :: after).flatMap (·.readings i) =
      w.now :: ((w :: after).flatMap (·.readings i)).tail := rfl
  intro t ht
  rw [hhead] at hrest ht
  rcases List.mem_cons.mp ht with rfl | ht
  · exact le_rfl
  · exact List.rel_of_pairwise_cons hrest ht

namespace Broker

variable {nmr : UInt8} {b b' : Broker nmr} {i : ℕ}

/-- In the loop over the deadlines only one reading concerns the position. -/
theorem readings_heartbeats (w : WakeUp) (i n : ℕ) :
    (((List.range n).map fun j => Event.heartbeat j w.now (w.renewed j)).filterMap
      (Event.reading i)).Sublist [w.renewed i] := by
  have hsame : ∀ m, (((List.range m).map fun j => Event.heartbeat j w.now (w.renewed j)).filterMap
      (Event.reading i)) = if i < m then [w.renewed i] else [] := by
    intro m
    induction m with
    | zero => rfl
    | succ m ih =>
        rw [List.range_succ, List.map_append, List.filterMap_append, ih, List.map_singleton]
        rcases lt_trichotomy m i with hlt | rfl | hgt
        · rw [if_neg (by omega), if_neg (by omega),
            List.filterMap_cons_none (by simp [Event.reading, hlt.ne])]
          rfl
        · rw [if_neg (by omega), if_pos (by omega),
            List.filterMap_cons_some (b := w.renewed m) (by simp [Event.reading])]
          rfl
        · rw [if_pos hgt, if_pos (by omega),
            List.filterMap_cons_none (by simp [Event.reading, hgt.ne'])]
          rfl
  rw [hsame n]
  split
  · exact List.Sublist.refl _
  · exact List.nil_sublist _

theorem readings_events (w : WakeUp) (i before after : ℕ) :
    ((w.events before after).filterMap (Event.reading i)).Sublist (w.readings i) := by
  have hresponses : ((List.range after).filterMap (w.responseAt before)).filterMap
      (Event.reading i) = [] := by
    apply List.filterMap_eq_nil_iff.mpr
    intro event hevent
    obtain ⟨j, -, hj⟩ := List.mem_filterMap.mp hevent
    unfold WakeUp.responseAt at hj
    split at hj
    · obtain ⟨answer, -, rfl⟩ := Option.map_eq_some_iff.mp hj
      rfl
    · cases hj
  unfold WakeUp.events WakeUp.readings
  rw [List.filterMap_append, List.filterMap_append, List.filterMap_append, List.filterMap_append,
    hresponses, List.append_nil]
  apply List.Sublist.append _ (List.nil_sublist [w.swept])
  apply List.Sublist.append _ (readings_heartbeats w i after)
  apply List.Sublist.append
  · apply List.sublist_append_of_sublist_right
    cases w.registration <;> exact List.Sublist.refl _
  · cases w.request with
    | none => exact List.Sublist.refl _
    | some request => exact List.sublist_cons_self ..

theorem readings_schedule (b : Broker nmr) (i : ℕ) (wakeUps : List WakeUp) :
    (((b.schedule wakeUps).map (·.event)).filterMap (Event.reading i)).Sublist
      (wakeUps.flatMap (·.readings i)) := by
  induction wakeUps generalizing b with
  | nil => exact List.Sublist.refl _
  | cons w wakeUps ih =>
      have hfirst : (b.moments w).map (·.event) = w.events b.dealer.length (b.dealersAfter w) := by
        rw [moments, List.map_map]
        exact List.map_id _
      rw [schedule, List.map_append, List.filterMap_append, hfirst, List.flatMap_cons]
      apply (readings_events w i _ _).append
      cases (b.wakeUp w).result with
      | error e => exact List.nil_sublist _
      | ok b' => exact ih b'

theorem exists_wakeUp_of_mem_schedule {wakeUps : List WakeUp} {moment : Moment}
    (h : moment ∈ b.schedule wakeUps) :
    ∃ w ∈ wakeUps, ∃ before after, moment.event ∈ w.events before after := by
  induction wakeUps generalizing b with
  | nil => exact absurd h List.not_mem_nil
  | cons w wakeUps ih =>
      rw [schedule, List.mem_append] at h
      rcases h with h | h
      · obtain ⟨event, hevent, rfl⟩ := List.mem_map.mp h
        exact ⟨w, List.mem_cons_self, _, _, hevent⟩
      · cases hw : (b.wakeUp w).result with
        | error e =>
            rw [hw] at h
            exact absurd h List.not_mem_nil
        | ok b' =>
            rw [hw] at h
            obtain ⟨w', hw', hevent⟩ := ih h
            exact ⟨w', List.mem_cons_of_mem w hw', hevent⟩

/-- The deadlines of a wake-up are compared with the reading after its poll. -/
theorem readings_of_heartbeat {w : WakeUp} {before after : ℕ} {now later : Timespec}
    (h : .heartbeat i now later ∈ w.events before after) : now = w.now ∧ later = w.renewed i := by
  simp only [WakeUp.events, List.mem_append, List.mem_map, List.mem_filterMap,
    List.mem_singleton] at h
  rcases h with (((⟨_, -, h⟩ | ⟨_, -, h⟩) | ⟨j, -, h⟩) | ⟨j, -, h⟩) | h
  · cases h
  · cases h
  · unfold WakeUp.responseAt at h
    split at h
    · obtain ⟨answer, -, h⟩ := Option.map_eq_some_iff.mp h
      cases h
    · cases h
  · cases h
    exact ⟨rfl, rfl⟩
  · cases h

/-- What the loop reads for one position goes forwards. -/
theorem rising_schedule {wakeUps : List WakeUp} (hforward : Forward wakeUps) (b : Broker nmr)
    (i : ℕ) : ∃ start, Rising i start ((b.schedule wakeUps).map (·.event)) := by
  have hsublist := readings_schedule b i wakeUps
  have hsorted : (((b.schedule wakeUps).map (·.event)).filterMap (Event.reading i)).Pairwise
      fun t t' => t.nanoseconds ≤ t'.nanoseconds := (hforward.pairwise i).sublist hsublist
  have hpolled : ∀ now later, Event.heartbeat i now later ∈ (b.schedule wakeUps).map (·.event) →
      now.Normalized ∧ now.nanoseconds ≤ later.nanoseconds := by
    intro now later hmem
    obtain ⟨moment, hmoment, heq⟩ := List.mem_map.mp hmem
    obtain ⟨w, hw, before, after, hevent⟩ := exists_wakeUp_of_mem_schedule hmoment
    rw [heq] at hevent
    obtain ⟨rfl, rfl⟩ := readings_of_heartbeat hevent
    refine ⟨hforward.normalized i _ (List.mem_flatMap.mpr ⟨w, hw, by simp [WakeUp.readings]⟩), ?_⟩
    obtain ⟨earlier, later, rfl⟩ := List.append_of_mem hw
    exact hforward.now_le (i := i) _ (List.mem_flatMap.mpr
      ⟨w, List.mem_cons_self, by simp [WakeUp.readings]⟩)
  have hnormalized : ∀ t ∈ ((b.schedule wakeUps).map (·.event)).filterMap (Event.reading i),
      t.Normalized := fun t ht => hforward.normalized i t (hsublist.subset ht)
  cases hreadings : ((b.schedule wakeUps).map (·.event)).filterMap (Event.reading i) with
  | nil =>
      refine ⟨0, hnormalized, ?_, hpolled⟩
      rw [hreadings]
      exact List.pairwise_singleton ..
  | cons t rest =>
      refine ⟨t.nanoseconds, hnormalized, ?_, hpolled⟩
      rw [hreadings] at hsorted ⊢
      have hvalues : ((t :: rest).map Timespec.nanoseconds).Pairwise (· ≤ ·) :=
        List.pairwise_map.mpr hsorted
      refine List.pairwise_cons.mpr ⟨?_, hvalues⟩
      intro later hlater
      rw [List.map_cons] at hlater hvalues
      rcases List.mem_cons.mp hlater with rfl | hlater
      · exact le_rfl
      · exact List.rel_of_pairwise_cons hvalues hlater

/-- **The pace of the heartbeats.**  In every run of the loop whose clock runs forwards, a round of
pings for a position comes more than `HEARTBEAT_INTERVAL` after its service became available, after
every request forwarded for it before, and after every earlier round. -/
theorem rounds_paced (portRouter portReg : UInt16) {wakeUps : List WakeUp}
    (hforward : Forward wakeUps) (i : ℕ) :
    (renewals i (init portRouter portReg : Broker nmr)
      ((init portRouter portReg : Broker nmr).schedule wakeUps)).Pairwise Paced := by
  obtain ⟨start, hrising⟩ := rising_schedule hforward (init portRouter portReg : Broker nmr) i
  refine (paced_run ⟨tabled_init portRouter portReg, ?_, hrising⟩).1
  intro deadline hdeadline
  cases hdeadline

end Broker

/-- Wake-ups that take no time. -/
theorem forward_of_instants {wakeUps : List WakeUp}
    (honce : ∀ w ∈ wakeUps, ∀ i, ∀ t ∈ w.readings i, t = w.now)
    (hnow : ∀ w ∈ wakeUps, w.now.Normalized)
    (hsorted : wakeUps.Pairwise fun w w' => w.now.nanoseconds ≤ w'.now.nanoseconds) :
    Forward wakeUps where
  normalized := by
    intro i t ht
    obtain ⟨w, hw, ht⟩ := List.mem_flatMap.mp ht
    rw [honce w hw i t ht]
    exact hnow w hw
  pairwise := by
    intro i
    rw [List.pairwise_flatMap]
    constructor
    · intro w hw
      refine List.pairwise_of_forall_mem_list fun t ht t' ht' => ?_
      rw [honce w hw i t ht, honce w hw i t' ht']
    · refine hsorted.imp_of_mem fun {w w'} hw hw' hle t ht t' ht' => ?_
      rw [honce w hw i t ht, honce w' hw' i t' ht']
      exact hle

/-- A wake-up that finds nothing. -/
def WakeUp.quiet (now : Int) : WakeUp where
  now := ⟨now, 0⟩
  healthCheckerPing := false
  registration := none
  request := none
  reply := fun _ => none
  renewed := fun _ => ⟨now, 0⟩
  swept := ⟨now, 0⟩
  connected := fun _ => Broker.everyone

/-- Two copies register, a client asks in the fourth second, and nothing else happens. -/
def pacedRun : List WakeUp :=
  [{ WakeUp.quiet 0 with registration := some (⟨"pippo", 0⟩, ⟨0, 0⟩) },
    { WakeUp.quiet 1 with registration := some (⟨"pippo", 0⟩, ⟨1, 0⟩) },
    { WakeUp.quiet 3 with request := some (7, ⟨0, Vector.replicate paramSize 0⟩, ⟨3, 0⟩, ⟨3, 0⟩) },
    WakeUp.quiet 5, WakeUp.quiet 6, WakeUp.quiet 8, WakeUp.quiet 9]

theorem forward_pacedRun : Forward pacedRun := by
  apply forward_of_instants
  · simp +contextual [pacedRun, WakeUp.quiet, WakeUp.readings, or_imp, eq_comm]
  · simp [pacedRun, WakeUp.quiet, normalized_of_seconds]
  · simp [pacedRun, WakeUp.quiet, Timespec.nanoseconds]

/-- The rounds come in the sixth and the ninth second, and not in the fifth. -/
theorem Broker.rounds_paced_pacedRun :
    Broker.renewals 0 (Broker.init 5559 5555 : Broker 2)
        ((Broker.init 5559 5555 : Broker 2).schedule pacedRun) =
      [⟨false, ⟨1, 0⟩, ⟨1, 0⟩⟩, ⟨false, ⟨3, 0⟩, ⟨3, 0⟩⟩, ⟨true, ⟨6, 0⟩, ⟨6, 0⟩⟩,
        ⟨true, ⟨9, 0⟩, ⟨9, 0⟩⟩] ∧
    (Broker.renewals 0 (Broker.init 5559 5555 : Broker 2)
      ((Broker.init 5559 5555 : Broker 2).schedule pacedRun)).Pairwise Broker.Paced :=
  ⟨by decide +kernel, Broker.rounds_paced 5559 5555 forward_pacedRun 0⟩

end ReliableService
