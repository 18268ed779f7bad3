import ReliableService.Copies.Traces
import ReliableService.Network.Transport

/-!
# Copies that answer every ping

`ping_server` sends `num_copies_reliable` pings to a socket that hands them out in turn, so
whom they reach is settled by the rotation.  Once a copy is written off there are fewer
pings than connected copies.  The rotation may then pass the same copy in every round, and a
copy that answers every ping it gets is written off as well (`starved_copy`).

For a copy that is prompt, three rounds in a row without a ping are the only way to be
written off (`healthy_of_reached`).  The invariant `OnTime` says why: a slot that has no pong
waiting and none under way has lost at most as many pongs as rounds have passed its copy.
While everybody who is connected is counted, no round passes anybody (`healthy_of_counted`).
-/

namespace ReliableService

variable {nmr : UInt8}

/-! ## One slot -/

namespace ServiceRecord

variable {record record' : ServiceRecord nmr} {j : Fin nmr.toNat} {coming : Prop} {missed : ℕ}

/-- The slot is not written off, and if it has no pong and none is coming, it has lost at
most `missed - 1` pongs. -/
structure SlotSafe (record : ServiceRecord nmr) (j : Fin nmr.toNat) (coming : Prop)
    (missed : ℕ) : Prop where
  lt_liveness : record.lostOf j < liveness
  due : record.pongOf j = true ∨ coming ∨ record.lostOf j + 1 ≤ missed

theorem SlotSafe.imp {coming' : Prop} (h : SlotSafe record j coming missed)
    (himp : coming → coming') : SlotSafe record j coming' missed :=
  ⟨h.lt_liveness, h.due.imp_right (Or.imp_left himp)⟩

theorem SlotSafe.congr (h : SlotSafe record j coming missed)
    (heq : record'.clearRequests = record.clearRequests) : SlotSafe record' j coming missed := by
  have hnew : record'.pongOf j = record.pongOf j := congrArg (·.pongOf j) heq
  have hlost : record'.lostOf j = record.lostOf j := congrArg (·.lostOf j) heq
  exact ⟨by rw [hlost]; exact h.lt_liveness, by rw [hnew, hlost]; exact h.due⟩

theorem slotSafe_init (owner : String) (port index : UInt16) (j : Fin nmr.toNat) :
    SlotSafe (init owner port index) j coming missed := by
  have hlost : (init owner port index : ServiceRecord nmr).lostOf j = -1 := lostOf_init ..
  exact ⟨by rw [hlost]; decide, Or.inr (Or.inr (by rw [hlost]; omega))⟩

/-- A pong of the copy is no longer under way: it waits in the record. -/
theorem SlotSafe.registerPong {idCopy : Fin nmr.toNat}
    (h : SlotSafe record j (coming ∨ idCopy = j) missed) :
    SlotSafe (record.registerPong idCopy) j coming missed := by
  refine ⟨h.lt_liveness, ?_⟩
  by_cases hself : idCopy = j
  · subst hself
    exact Or.inl (pongOf_registerPong_self record idCopy)
  · rw [pongOf_registerPong_of_ne record hself]
    exact h.due.imp_right (Or.imp_left fun hcoming => hcoming.resolve_right hself)

theorem SlotSafe.registration (h : SlotSafe record j coming missed) :
    SlotSafe (record.afterEvent .registration) j coming missed := by
  exact ⟨by rw [lostOf_registration]; exact h.lt_liveness,
    by rw [pongOf_registration, lostOf_registration]; exact h.due⟩

/-- `check_pong`, when no pong is under way. -/
theorem SlotSafe.checkPong (h : SlotSafe record j False missed) (hmissed : missed < liveness) :
    record.checkPong.lostOf j < liveness ∧
      record.checkPong.lostOf j + 1 ≤ (missed + 1 : ℕ) := by
  rw [lostOf_checkPong]
  by_cases hnew : record.pongOf j = true
  · rw [if_pos hnew]
    exact ⟨by decide, by omega⟩
  · have hlost : record.lostOf j + 1 ≤ missed := by
      rcases h.due with hpong | hfalse | hlost
      · exact absurd hpong hnew
      · exact hfalse.elim
      · exact hlost
    rw [if_neg hnew, if_pos h.lt_liveness]
    exact ⟨by omega, by omega⟩

/-- Everything but a check, in any order. -/
theorem SlotSafe.afterEvents {events : List (CopyEvent nmr)}
    (h : SlotSafe record j (coming ∨ .pong j ∈ events) missed) (hcheck : .check ∉ events) :
    SlotSafe (record.afterEvents events) j coming missed := by
  induction events generalizing record with
  | nil => exact h.imp fun hcoming => hcoming.resolve_right List.not_mem_nil
  | cons event events ih =>
      rw [List.mem_cons, not_or] at hcheck
      refine ih ?_ hcheck.2
      cases event with
      | registration => exact h.registration.imp (by simp)
      | pong idCopy =>
          refine SlotSafe.registerPong (h.imp ?_)
          simp only [List.mem_cons, CopyEvent.pong.injEq]
          tauto
      | check => exact absurd rfl hcheck.1

end ServiceRecord

open ServiceRecord

/-! ## One call of a handler -/

namespace Broker

variable {b b' : Broker nmr} {service : ServiceType} {event : Event} {j : Fin nmr.toNat}
  {coming : Prop} {missed : ℕ}

/-- The number of pings in a heartbeat of this position: `num_copies_reliable` after
`check_pong`. -/
def pingCount (b : Broker nmr) (i : ℕ) : ℕ :=
  match b.availableServices[i]?, b.availableServices[(UInt8.ofNat i).toNat]? with
  | some service, some counted =>
      match b.db.servicesDb counted with
      | some record =>
          (if counted = service then record.checkPong else record).numCopiesReliable.toNat
      | none => 0
  | _, _ => 0

theorem heartbeat_sent_of_due {i : ℕ} {now later : Timespec} (hdue : b.Due i now)
    (h : (b.heartbeat i now later).result = .ok b') :
    ∃ seqId, (b.heartbeat i now later).sent = List.replicate (b.pingCount i)
      (.dealer (UInt8.ofNat i).toNat pingEnvelope (ping seqId)) := by
  obtain ⟨service, record, hservice, hrecord, -, hsent, _, hping⟩ := heartbeat_ok hdue h
  obtain ⟨checked, counted, countedRecord, -, hcounted, hdb, hpings⟩ := pingServer_ok hping
  refine ⟨checked.seqIdPing, ?_⟩
  rw [hsent, hpings]
  dsimp only at hcounted
  rw [pingCount, hservice, hcounted]
  by_cases hself : counted = service
  · subst hself
    rw [ServiceDatabase.insert_self, Option.some.injEq] at hdb
    simp only [hrecord, if_true, hdb]
  · rw [ServiceDatabase.insert_of_ne _ hself] at hdb
    simp only [hdb, if_neg hself]

theorem check_mem_copyEvents (h : .check ∈ b.copyEvents service event) :
    ∃ i now later, event = .heartbeat i now later ∧ b.Due i now ∧
      b.availableServices[i]? = some service := by
  cases event with
  | heartbeat i now later =>
      simp only [copyEvents] at h
      split at h
      · rename_i hround
        exact ⟨i, now, later, rfl, hround⟩
      · simp at h
  | registration rm now => simp only [copyEvents] at h; split at h <;> simp at h
  | request c request now later => simp [copyEvents] at h
  | response index reply c =>
      simp only [copyEvents] at h
      split at h
      · split at h <;> simp at h
      · simp at h
  | sweep now => simp [copyEvents] at h

/-- The slots of the record after a call are those after the events of the call. -/
theorem slotSafe_of_handle (h : (b.handle everyone event).result = .ok b')
    (hsafe : ∀ record ∈ b.db.servicesDb service,
      SlotSafe (record.afterEvents (b.copyEvents service event)) j coming missed) :
    ∀ record ∈ b'.db.servicesDb service, SlotSafe record j coming missed := by
  intro record' hrecord'
  cases hrecord : b.db.servicesDb service with
  | none =>
      obtain ⟨owner, port, index, rfl⟩ := init_of_handle h hrecord hrecord'
      exact slotSafe_init owner port index j
  | some record =>
      obtain ⟨after, hafter, heq⟩ := copies_of_handle h hrecord
      obtain rfl : after = record' := Option.some.inj (hafter.symm.trans hrecord')
      exact (hsafe record hrecord).congr heq

end Broker

namespace System

variable {κ : Type} [DecidableEq κ] {d : Deployment κ} {k : κ} {s s' t : System nmr κ}
  {missed : ℕ}

/-! ## Rounds -/

/-- The action is a heartbeat round of the service: `check_pong`, then `ping_server`. -/
def IsRound (s : System nmr κ) (service : ServiceType) : Action κ → Prop
  | .heartbeat i now _ => ∃ b ∈ s.session.broker, b.Due i now ∧
      b.availableServices[i]? = some service
  | _ => False

instance IsRound.decidable (s : System nmr κ) (service : ServiceType) :
    ∀ action : Action κ, Decidable (s.IsRound service action)
  | .heartbeat i now _ =>
      match hb : s.session.broker with
      | none => .isFalse (by simp [IsRound, hb])
      | some b => decidable_of_iff (b.Due i now ∧ b.availableServices[i]? = some service)
          (by simp [IsRound, hb])
  | .register _ _ _ => .isFalse id
  | .connect _ _ => .isFalse id
  | .request _ _ _ _ => .isFalse id
  | .process _ _ _ => .isFalse id
  | .deliver _ _ => .isFalse id
  | .sweep _ => .isFalse id

/-- The copies the pings of a heartbeat of this position go to. -/
def pingTargets (s : System nmr κ) (i : ℕ) : List κ :=
  match s.session.broker with
  | none => []
  | some b => (s.dealers (UInt8.ofNat i).toNat).targets (b.pingCount i)

/-- Every ping the copy has received is answered, and the pong has arrived. -/
def Prompt (s : System nmr κ) (k : κ) : Prop :=
  (∀ m ∈ s.inbox k, m.sm.heartbeat = false) ∧ ∀ a ∈ s.outbox k, a.reply.heartbeat = false

instance Prompt.decidable (s : System nmr κ) (k : κ) : Decidable (s.Prompt k) :=
  inferInstanceAs (Decidable (_ ∧ _))

/-- The copy answers the pings it receives before the next `check_pong`. -/
def PromptAt (d : Deployment κ) (k : κ) (s : System nmr κ) (action : Action κ) : Prop :=
  s.IsRound (d.service k) action → s.Prompt k

instance PromptAt.decidable (d : Deployment κ) (k : κ) (s : System nmr κ) (action : Action κ) :
    Decidable (PromptAt d k s action) :=
  inferInstanceAs (Decidable (_ → _))

/-- The slots of a copy are below `LIVENESS`: it is not written off. -/
def Healthy (d : Deployment κ) (k : κ) (s : System nmr κ) : Prop :=
  ∀ b ∈ s.session.broker, ∀ record ∈ b.db.servicesDb (d.service k),
    ∀ j : Fin nmr.toNat, j.val = (d.id k).toNat → record.lostOf j < liveness

/-! ## Pings and pongs under way -/

/-- A ping waits for the copy, or a pong of it for the broker. -/
def OnTheWay (inbox : List Delivery) (outbox : List Answer) : Prop :=
  (∃ m ∈ inbox, m.sm.heartbeat = true) ∨ ∃ a ∈ outbox, a.reply.heartbeat = true

omit [DecidableEq κ] in
theorem not_onTheWay_of_prompt (h : s.Prompt k) : ¬ OnTheWay (s.inbox k) (s.outbox k) := by
  rintro (⟨m, hm, hping⟩ | ⟨a, ha, hpong⟩)
  · exact Bool.noConfusion (hping.symm.trans (h.1 m hm))
  · exact Bool.noConfusion (hpong.symm.trans (h.2 a ha))

/-- What holds between the copy and its slot, `missed` rounds after it was last pinged. -/
structure OnTime (d : Deployment κ) (k : κ) (missed : ℕ) (s : System nmr κ) : Prop where
  replies : ∀ a ∈ s.outbox k, a.reply.service = d.service k ∧ a.reply.id = d.id k
  slot : ∀ b ∈ s.session.broker, ∀ record ∈ b.db.servicesDb (d.service k),
    ∀ j : Fin nmr.toNat, j.val = (d.id k).toNat →
      SlotSafe record j (OnTheWay (s.inbox k) (s.outbox k)) missed

omit [DecidableEq κ] in
theorem OnTime.healthy (h : OnTime d k missed s) : s.Healthy d k :=
  fun b hb record hrecord j hj => (h.slot b hb record hrecord j hj).lt_liveness

omit [DecidableEq κ] in
theorem onTime_init (d : Deployment κ) (k : κ) (portRouter portReg : UInt16) :
    OnTime d k 0 (init portRouter portReg : System nmr κ) where
  replies a ha := by simp [init] at ha
  slot b hb record hrecord := by
    obtain rfl : Broker.init portRouter portReg = b := Option.some.inj hb
    cases hrecord

/-! ## The broker handles an event -/

/-- The broker handles an event; the records are those after the events of the call. -/
theorem OnTime.of_perform {event : Event} {missed' : ℕ}
    (hreplies : ∀ a ∈ t.outbox k, a.reply.service = d.service k ∧ a.reply.id = d.id k)
    (hslot : ∀ b ∈ t.session.broker, s'.session.broker ≠ none →
      ∀ record ∈ b.db.servicesDb (d.service k),
        ∀ j : Fin nmr.toNat, j.val = (d.id k).toNat →
          SlotSafe (record.afterEvents (b.copyEvents (d.service k) event)) j
            (OnTheWay (s'.inbox k) (s'.outbox k)) missed')
    (hperform : t.perform event = some s') : OnTime d k missed' s' := by
  obtain ⟨hstep, hposted⟩ := performed_of_some hperform
  obtain ⟨b, hb, -, hsession⟩ := Session.step_eq_some hstep
  refine ⟨by rw [hposted.outbox_eq]; exact hreplies, ?_⟩
  intro b' hb' record hrecord j hj
  have hhandle : (b.handle Broker.everyone event).result = .ok b' := by
    rw [hsession] at hb'
    exact Outcome.toOption_eq_some.mp hb'
  refine Broker.slotSafe_of_handle hhandle ?_ record hrecord
  intro before hbefore
  exact hslot b hb (by rw [Option.mem_def.mp hb']; simp) before hbefore j hj

/-- What the broker sends can only add a ping. -/
theorem onTheWay_of_perform {event : Event} (hperform : t.perform event = some s')
    (h : OnTheWay (t.inbox k) (t.outbox k)) : OnTheWay (s'.inbox k) (s'.outbox k) := by
  obtain ⟨-, hposted⟩ := performed_of_some hperform
  obtain ⟨new, hnew, -⟩ := hposted.inbox k
  rw [hnew, hposted.outbox_eq]
  rcases h with ⟨m, hm, hping⟩ | hpong
  · exact Or.inl ⟨m, List.mem_append_left new hm, hping⟩
  · exact Or.inr hpong

/-- Any event but a round of the service. -/
theorem OnTime.perform (h : OnTime d k missed s) {event : Event}
    (hround : ∀ b ∈ s.session.broker, .check ∉ b.copyEvents (d.service k) event)
    (hperform : s.perform event = some s') : OnTime d k missed s' := by
  refine OnTime.of_perform h.replies ?_ hperform
  intro b hb _ record hrecord j hj
  exact ((h.slot b hb record hrecord j hj).imp fun hcoming =>
    Or.inl (onTheWay_of_perform hperform hcoming)).afterEvents (hround b hb)

/-- A round that succeeds has posted its pings. -/
theorem posted_pings {i : ℕ} {now later : Timespec} {b : Broker nmr}
    (hb : s.session.broker = some b) (hdue : b.Due i now) (hok : s'.session.broker ≠ none)
    (hperform : s.perform (.heartbeat i now later) = some s') :
    ∃ seqId ask, s' = (List.replicate (b.pingCount i)
      (Output.dealer (UInt8.ofNat i).toNat pingEnvelope (Broker.ping seqId))).foldl (post ask)
        { s with session := s'.session } := by
  obtain ⟨hstep, hpost⟩ := perform_eq_some hperform
  obtain ⟨b', hb', -, hsession⟩ := Session.step_eq_some hstep
  obtain rfl : b = b' := Option.some.inj (hb.symm.trans hb')
  obtain ⟨after, hafter⟩ := Option.ne_none_iff_exists'.mp hok
  rw [hsession] at hafter
  obtain ⟨seqId, hsent⟩ := Broker.heartbeat_sent_of_due hdue (Outcome.toOption_eq_some.mp hafter)
  have hsends : s.sends (.heartbeat i now later) = List.replicate (b.pingCount i)
      (.dealer (UInt8.ofNat i).toNat pingEnvelope (Broker.ping seqId)) := by
    rw [sends, hb]
    exact hsent
  rw [hsends] at hpost
  exact ⟨seqId, _, hpost⟩

/-- A round of the service: the prompt copy is pinged, or one more round has passed it. -/
theorem OnTime.round (h : OnTime d k missed s) {i : ℕ} {now later : Timespec}
    (hprompt : s.Prompt k) (hmissed : missed < liveness) {b : Broker nmr}
    (hb : s.session.broker = some b) (hdue : b.Due i now)
    (hservice : b.availableServices[i]? = some (d.service k))
    (hperform : s.perform (.heartbeat i now later) = some s') :
    OnTime d k (if k ∈ s.pingTargets i then 0 else missed + 1) s' := by
  refine OnTime.of_perform h.replies ?_ hperform
  intro b' hb' hok record hrecord j hj
  obtain rfl : b = b' := Option.some.inj (hb.symm.trans hb')
  have hevents : b.copyEvents (d.service k) (.heartbeat i now later) = [.check] :=
    if_pos ⟨hdue, hservice⟩
  have hsafe : SlotSafe record j False missed :=
    (h.slot b hb record hrecord j hj).imp (not_onTheWay_of_prompt hprompt)
  obtain ⟨hlt, hle⟩ := hsafe.checkPong hmissed
  rw [hevents]
  refine ⟨hlt, Or.inr ?_⟩
  by_cases htarget : k ∈ s.pingTargets i
  · refine Or.inl (Or.inl ?_)
    obtain ⟨seqId, ask, hpost⟩ := posted_pings hb hdue hok hperform
    rw [pingTargets, hb] at htarget
    rw [hpost]
    exact ⟨_, mem_inbox_of_targets htarget, rfl⟩
  · rw [if_neg htarget]
    exact Or.inr hle

/-- The first reply of a copy arrives. -/
theorem OnTime.deliver (h : OnTime d k missed s) {other : κ} {index : ℕ} {a : Answer}
    {rest : List Answer} (houtbox : s.outbox other = a :: rest)
    (hperform : ({ s with outbox := Function.update s.outbox other rest } : System nmr κ).perform
      (.response index a.reply a.envelope) = some s') : OnTime d k missed s' := by
  have hcheck : ∀ b : Broker nmr,
      .check ∉ b.copyEvents (d.service k) (.response index a.reply a.envelope) := by
    intro b hmem
    obtain ⟨i, now, later, heq, -⟩ := Broker.check_mem_copyEvents hmem
    cases heq
  refine OnTime.of_perform ?_ ?_ hperform
  · intro a' ha'
    apply h.replies a'
    by_cases hself : other = k
    · subst hself
      simp only [Function.update_self] at ha'
      rw [houtbox]
      exact List.mem_cons_of_mem a ha'
    · simp only [Function.update_of_ne (Ne.symm hself)] at ha'
      exact ha'
  · intro b hb _ record hrecord j hj
    refine ((h.slot b hb record hrecord j hj).imp fun hcoming => ?_).afterEvents (hcheck b)
    -- what was under way still is, unless it is the pong that has just arrived
    by_cases hself : other = k
    · subst hself
      rcases hcoming with hping | ⟨a', ha', hpong⟩
      · exact Or.inl (onTheWay_of_perform hperform (Or.inl hping))
      · rw [houtbox, List.mem_cons] at ha'
        rcases ha' with rfl | ha'
        · obtain ⟨hservice, hid⟩ := h.replies a' (by rw [houtbox]; exact List.mem_cons_self)
          apply Or.inr
          have hlt : a'.reply.id.toNat < nmr.toNat := by rw [hid, ← hj]; exact j.isLt
          simp only [Broker.copyEvents, hpong, hservice, and_self, if_true, dif_pos hlt,
            List.mem_singleton, CopyEvent.pong.injEq]
          exact Fin.ext (hj.trans (congrArg UInt8.toNat hid).symm)
        · refine Or.inl (onTheWay_of_perform hperform (Or.inr ⟨a', ?_, hpong⟩))
          simp only [Function.update_self]
          exact ha'
    · refine Or.inl (onTheWay_of_perform hperform ?_)
      simp only [Function.update_of_ne (Ne.symm hself)]
      exact hcoming

/-! ## One action -/

/-- A copy handles its first message; a ping becomes a pong. -/
theorem OnTime.process (h : OnTime d k missed s) {other : κ} {scratch : Int32} {flag : Bool}
    (hstep : s.processFirst d other scratch flag = some s') : OnTime d k missed s' := by
  unfold processFirst at hstep
  cases hinbox : s.inbox other with
  | nil =>
      rw [hinbox] at hstep
      cases hstep
  | cons m rest =>
      rw [hinbox] at hstep
      dsimp only at hstep
      rw [← Option.some.inj hstep]
      by_cases hself : other = k
      · subst hself
        refine ⟨fun a ha => ?_, fun b hb record hrecord j hj =>
          (h.slot b hb record hrecord j hj).imp fun hcoming => ?_⟩
        · simp only [Function.update_self, List.mem_append, List.mem_singleton] at ha
          rcases ha with ha | rfl
          · exact h.replies a ha
          · exact ⟨Deployment.reply_service .., Deployment.reply_id ..⟩
        · simp only [Function.update_self]
          rcases hcoming with ⟨m', hm', hping⟩ | ⟨a, ha, hpong⟩
          · rw [hinbox, List.mem_cons] at hm'
            rcases hm' with rfl | hm'
            · refine Or.inr ⟨_, List.mem_append_right _ List.mem_cons_self, ?_⟩
              rw [Server.receive, if_pos hping]
              rfl
            · exact Or.inl ⟨m', hm', hping⟩
          · exact Or.inr ⟨a, List.mem_append_left _ ha, hpong⟩
      · refine ⟨?_, ?_⟩
        · intro a ha
          simp only [Function.update_of_ne (Ne.symm hself)] at ha
          exact h.replies a ha
        · intro b hb record hrecord j hj
          simp only [Function.update_of_ne (Ne.symm hself)]
          exact h.slot b hb record hrecord j hj

/-- The rounds that have passed the copy since it was last pinged. -/
def missedAfter (d : Deployment κ) (k : κ) (s : System nmr κ) (action : Action κ)
    (missed : ℕ) : ℕ :=
  match action with
  | .heartbeat i now later =>
      if s.IsRound (d.service k) (.heartbeat i now later) then
        if k ∈ s.pingTargets i then 0 else missed + 1
      else missed
  | _ => missed

/-- **One action**, with the copy prompt and not passed by `LIVENESS` rounds. -/
theorem OnTime.step (h : OnTime d k missed s) {action : Action κ} (hprompt : PromptAt d k s action)
    (hmissed : s.IsRound (d.service k) action → missed < liveness)
    (hstep : s.step d action = some s') : OnTime d k (missedAfter d k s action missed) s' := by
  have hno : ∀ event : Event, (∀ i now later, event ≠ .heartbeat i now later) →
      ∀ b ∈ s.session.broker, .check ∉ b.copyEvents (d.service k) event := by
    intro event hevent b _ hmem
    obtain ⟨i, now, later, heq, -⟩ := Broker.check_mem_copyEvents hmem
    exact hevent i now later heq
  cases action with
  | register other signature now =>
      simp only [System.step] at hstep
      split at hstep
      · obtain ⟨t, ht, hstep⟩ := Option.bind_eq_some_iff.mp hstep
        rw [← Option.some.inj hstep]
        have honTime := h.perform (hno _ (by simp)) ht
        exact ⟨honTime.replies, honTime.slot⟩
      · cases hstep
  | connect other index =>
      simp only [System.step] at hstep
      split at hstep
      · rw [← Option.some.inj hstep]
        exact ⟨h.replies, h.slot⟩
      · cases hstep
  | request c request now later => exact h.perform (hno _ (by simp)) hstep
  | process other scratch flag => exact h.process hstep
  | deliver other index =>
      simp only [System.step] at hstep
      split at hstep
      · cases hstep
      · rename_i a rest houtbox
        exact h.deliver houtbox hstep
  | heartbeat i now later =>
      by_cases hround : s.IsRound (d.service k) (.heartbeat i now later)
      · rw [missedAfter, if_pos hround]
        obtain ⟨b, hb, hdue, hservice⟩ := id hround
        exact h.round (hprompt hround) (hmissed hround) hb hdue hservice hstep
      · rw [missedAfter, if_neg hround]
        refine h.perform (fun b hb hmem => hround ?_) hstep
        obtain ⟨_, _, _, heq, hdue, hservice⟩ := Broker.check_mem_copyEvents hmem
        rw [Event.heartbeat.injEq] at heq
        obtain ⟨rfl, rfl, rfl⟩ := heq
        exact ⟨b, hb, hdue, hservice⟩
  | sweep now => exact h.perform (hno _ (by simp)) hstep

/-! ## Runs -/

/-- The run of the system, with the rounds that have passed the copy. -/
def watch (d : Deployment κ) (k : κ) :
    System nmr κ × ℕ → Action κ → Option (System nmr κ × ℕ) :=
  Machine.withGhost (step d) (missedAfter d k)

/-- Fewer than `LIVENESS` rounds have passed the copy when the next one begins. -/
def Reached (d : Deployment κ) (k : κ) (s : System nmr κ × ℕ) (action : Action κ) : Prop :=
  s.1.IsRound (d.service k) action → s.2 < liveness

instance Reached.decidable (d : Deployment κ) (k : κ) (s : System nmr κ × ℕ) (action : Action κ) :
    Decidable (Reached d k s action) :=
  inferInstanceAs (Decidable (_ → _))

/-- **A prompt copy is never written off**, as long as the pings of `LIVENESS` rounds in a
row do not all go to others. -/
theorem healthy_of_reached (portRouter portReg : UInt16) (k : κ) (actions : List (Action κ))
    (hprompt : Machine.Along (step d) (PromptAt d k)
      (init portRouter portReg : System nmr κ) actions)
    (hreached : Machine.Along (watch d k) (Reached d k)
      ((init portRouter portReg : System nmr κ), 0) actions)
    (hrun : Machine.run (step d) (init portRouter portReg) actions = some s) :
    s.Healthy d k := by
  have hend : ∃ missed, OnTime d k missed s := by
    refine Machine.run_invariant_withGhost ?_ (onTime_init d k portRouter portReg) hprompt
      hreached hrun
    exact fun _ _ _ _ h hprompt hreached hstep => h.step hprompt hreached hstep
  obtain ⟨missed, honTime⟩ := hend
  exact honTime.healthy

/-- The copy is connected, and there is a ping for every peer it shares the socket with. -/
def Counted (d : Deployment κ) (k : κ) (s : System nmr κ) : Action κ → Prop
  | .heartbeat i now later => s.IsRound (d.service k) (.heartbeat i now later) →
      ∀ b ∈ s.session.broker, k ∈ (s.dealers (UInt8.ofNat i).toNat).peers ∧
        (s.dealers (UInt8.ofNat i).toNat).peers.length ≤ b.pingCount i
  | _ => True

omit [DecidableEq κ] in
/-- A round with a ping for every peer passes nobody. -/
theorem mem_pingTargets {i : ℕ} {b : Broker nmr} (hb : s.session.broker = some b)
    (hvalid : ∀ index, (s.dealers index).Valid)
    (hk : k ∈ (s.dealers (UInt8.ofNat i).toNat).peers)
    (hcount : (s.dealers (UInt8.ofNat i).toNat).peers.length ≤ b.pingCount i) :
    k ∈ s.pingTargets i := by
  rw [pingTargets, hb]
  exact Rotation.mem_targets ((hvalid _).ready hk) hcount hk

/-- Such a round leaves no round behind that has passed the copy. -/
theorem OnTime.step_counted (h : OnTime d k 0 s) (hvalid : ∀ index, (s.dealers index).Valid)
    {action : Action κ} (hcounted : PromptAt d k s action ∧ Counted d k s action)
    (hstep : s.step d action = some s') : OnTime d k 0 s' := by
  have honTime := h.step hcounted.1 (fun _ => by decide) hstep
  have hzero : missedAfter d k s action 0 = 0 := by
    cases action with
    | heartbeat i now later =>
        rw [missedAfter]
        split_ifs with hround htarget
        · rfl
        · obtain ⟨b, hb, -⟩ := id hround
          obtain ⟨hk, hcount⟩ := hcounted.2 hround b hb
          exact absurd (mem_pingTargets hb hvalid hk hcount) htarget
        · rfl
    | _ => rfl
  rw [← hzero]
  exact honTime

/-- **While every peer is counted**, a prompt copy is never passed, and never written off. -/
theorem healthy_of_counted (portRouter portReg : UInt16) (k : κ) (actions : List (Action κ))
    (halong : Machine.Along (step d) (fun s action => PromptAt d k s action ∧ Counted d k s action)
      (init portRouter portReg : System nmr κ) actions)
    (hrun : Machine.run (step d) (init portRouter portReg) actions = some s) :
    s.Healthy d k := by
  have hend : OnTime d k 0 s ∧ ∀ index, (s.dealers index).Valid := by
    refine Machine.run_invariant
      (P := fun t : System nmr κ => OnTime d k 0 t ∧ ∀ index, (t.dealers index).Valid) ?_
      ⟨onTime_init d k portRouter portReg, fun _ => Rotation.valid_empty⟩ halong hrun
    rintro s action s' ⟨h, hvalid⟩ hcounted hstep
    exact ⟨h.step_counted hvalid hcounted hstep, valid_step hvalid hstep⟩
  exact hend.1.healthy

/-! ## A slow neighbour -/

/-- A heartbeat round of the only service. -/
def beat (now : Int) : List (Action (Fin 3)) := [.heartbeat 0 ⟨now, 0⟩ ⟨now, 0⟩]

/-- Two requests, after which it is copy `0` that gets no ping in the next round. -/
def askTwice (c : ClientId) (now : Int) : List (Action (Fin 3)) :=
  [asking c 1 now, asking (c + 1) 1 now] ++ working copy0 ++ working copy1 ++ working copy0

/-- Copy `2` is slow and is written off after four rounds.  From then on a round is two pings
for three peers, and two rounds have passed copy `0`. -/
def slowNeighbourRun : List (Action (Fin 3)) :=
  let both := working copy0 ++ working copy1
  beat 10 ++ both ++ beat 20 ++ both ++ beat 30 ++ both ++ beat 40 ++ both ++
    [asking 1 1 40] ++ working copy2 ++ working copy2 ++ working copy2 ++ working copy2 ++
    working copy0 ++ beat 50 ++ working copy1 ++ askTwice 2 50 ++ beat 60 ++ working copy1

theorem healthy_of_reached_slowNeighbourRun :
    ∃ s, Machine.run (step (threeCopies ∅)) (init 5559 5555 : System 3 (Fin 3))
      (deployed ++ slowNeighbourRun ++ beat 70) = some s ∧ s.Healthy (threeCopies ∅) copy0 := by
  have hrun : (Machine.run (step (threeCopies ∅)) (init 5559 5555 : System 3 (Fin 3))
      (deployed ++ slowNeighbourRun ++ beat 70)).isSome := by decide +kernel
  exact ⟨_, (Option.some_get hrun).symm, healthy_of_reached 5559 5555 copy0 _
    (by decide +kernel) (by decide +kernel) (Option.some_get hrun).symm⟩

/-- With more requests in between, the next round passes copy `0` as well. -/
def starvingRun : List (Action (Fin 3)) :=
  slowNeighbourRun ++ askTwice 4 60 ++ beat 70 ++ working copy1 ++ askTwice 6 70 ++ beat 80

/-- **A copy that answers every ping is written off**, because the rotation has passed it
in three rounds. -/
theorem starved_copy :
    ¬ ∀ (nmr : UInt8) (κ : Type) [DecidableEq κ] [Fintype κ] (d : Deployment κ) (k : κ)
      (portRouter portReg : UInt16) (before after : List (Action κ)) (s t : System nmr κ),
      Fintype.card κ = nmr.toNat → Function.Injective d.id →
        (∀ c, (d.id c).toNat < nmr.toNat ∧ d.service c = d.service k) →
        Machine.run (step d) (init portRouter portReg) before = some s →
        (∃ index, ∀ c, c ∈ (s.dealers index).peers) →
        Machine.Along (step d) (PromptAt d k) (init portRouter portReg : System nmr κ)
          (before ++ after) →
        Machine.run (step d) s after = some t → t.Healthy d k := by
  intro h
  have hdeployed : (Machine.run (step (threeCopies ∅)) (init 5559 5555 : System 3 (Fin 3))
      deployed).map (fun s => decide (∀ c, c ∈ (s.dealers 0).peers)) = some true := by
    decide +kernel
  obtain ⟨s, hs, hpeers⟩ := Option.map_eq_some_iff.mp hdeployed
  have hwhole : (Machine.run (step (threeCopies ∅)) (init 5559 5555 : System 3 (Fin 3))
      (deployed ++ starvingRun)).map (fun t => do
        let b ← t.session.broker
        let record ← b.db.servicesDb 0
        some (record.lostOf ⟨0, by decide⟩)) = some (some 3) := by decide +kernel
  obtain ⟨t, ht, hlost⟩ := Option.map_eq_some_iff.mp hwhole
  have hrest : Machine.run (step (threeCopies ∅)) s starvingRun = some t := by
    rw [Machine.run, List.foldlM_append] at ht
    obtain ⟨u, hu, ht⟩ := Option.bind_eq_some_iff.mp ht
    obtain rfl : s = u := Option.some.inj (hs.symm.trans hu)
    exact ht
  have hhealthy := h 3 (Fin 3) (threeCopies ∅) copy0 5559 5555 deployed starvingRun s t (by decide)
    (by decide) (by decide) hs ⟨0, of_decide_eq_true hpeers⟩ (by decide +kernel) hrest
  obtain ⟨b, hb, hlost⟩ := Option.bind_eq_some_iff.mp hlost
  obtain ⟨record, hrecord, hlost⟩ := Option.bind_eq_some_iff.mp hlost
  have hlt := hhealthy b hb record hrecord ⟨0, by decide⟩ rfl
  rw [Option.some.inj hlost] at hlt
  exact absurd hlt (by decide)

end System

end ReliableService
