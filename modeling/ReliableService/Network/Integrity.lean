import ReliableService.Clients.Disconnect
import ReliableService.Network.Queues
import ReliableService.Network.Transport
import ReliableService.Requests.AtMostOnce

/-!
# A response carries the result of its own request

A reply does not say which request it answers.  `push_result` files it under the record the
client has now, so the late answer of a slow copy to one request of a client counts for the
next one (`stale_majority`).

While no reply counts for another request than its own (`Timely`), the votes of a record
are what they should be: each from another copy, and from the copies that are not faulty
the value of the service body for the parameters of this request (`Supported`).  With at
most `(nmr - 1) / 2` faulty copies behind a service, a winner is then the right value.
-/

namespace ReliableService.System

open ServiceRecord Majority

variable {nmr : UInt8} {κ : Type} [DecidableEq κ] {d : Deployment κ} {s s' t : System nmr κ}

/-- The requests of all clients so far. -/
abbrev asks (s : System nmr κ) : List Ask := s.session.ledger.asks

/-- A response with status `SERVICE_AVAILABLE` carries the value for its request. -/
def Correct (d : Deployment κ) (asks : List Ask) (n : ℕ) (response : ResponseModule) : Prop :=
  response.serviceStatus = .serviceAvailable → ∃ ask, asks[n]? = some ask ∧
    response.result = some (d.body ask.request.service ask.request.parameters)

/-- The results of a record of request `n` are the votes of different copies of its service,
each of which has nothing more to say about `n`. -/
def Supported (d : Deployment κ) (s : System nmr κ) (n : ℕ) (results : List Int32) : Prop :=
  ∃ ask, s.asks[n]? = some ask ∧ ∃ ballots : List (κ × Int32),
    results = ballots.map Prod.snd ∧ (ballots.map Prod.fst).Nodup ∧
      ∀ ballot ∈ ballots, d.service ballot.1 = ask.request.service ∧
        (ballot.1 ∉ d.faulty →
          ballot.2 = d.body ask.request.service ask.request.parameters) ∧
        Spent (s.server ballot.1) (s.inbox ballot.1) (s.outbox ballot.1) n

/-- At most `(nmr - 1) / 2` copies of each service are faulty. -/
def Masked (nmr : UInt8) (d : Deployment κ) : Prop :=
  ∀ service, (d.faulty.filter fun k => d.service k = service).card ≤ (nmr.toNat - 1) / 2

/-- What holds in every state of a timely run. -/
structure Invariant (d : Deployment κ) (s : System nmr κ) : Prop where
  inOrder : s.session.InOrder (Supported d s) (Correct d s.asks)
  copies : ∀ k, CopyOk d k s.asks (s.server k) (s.inbox k) (s.outbox k)

/-! ## The vote -/

/-- **A winner among supported votes is the right value.** -/
theorem justifies (hmasked : Masked nmr d) (s : System nmr κ) :
    Justifies nmr (Supported d s) (Correct d s.asks) where
  winner := by
    rintro n results v ⟨ask, hask, ballots, rfl, hnodup, hballots⟩ hwins -
    -- the faulty copies among the voters are faulty copies of this service
    have hliars : (d.faulty.filter (· ∈ ballots.map Prod.fst)).card ≤ nmr.toNat / 2 := by
      have hsubset : (d.faulty.filter (· ∈ ballots.map Prod.fst)) ⊆
          d.faulty.filter fun k => d.service k = ask.request.service := by
        intro k hk
        rw [Finset.mem_filter] at hk ⊢
        obtain ⟨ballot, hmem, rfl⟩ := List.mem_map.mp hk.2
        exact ⟨hk.1, (hballots ballot hmem).1⟩
      calc (d.faulty.filter (· ∈ ballots.map Prod.fst)).card
          ≤ (d.faulty.filter fun k => d.service k = ask.request.service).card :=
            Finset.card_le_card hsubset
        _ ≤ (nmr.toNat - 1) / 2 := hmasked ask.request.service
        _ ≤ nmr.toNat / 2 := by omega
    refine ⟨ask, hask, congrArg some ?_⟩
    exact hwins.eq_of_honest hnodup
      (fun ballot hmem hhonest => (hballots ballot hmem).2.1 hhonest) hliars
  refusal := fun n status result hstatus havailable => absurd havailable hstatus

/-! ## Monotonicity -/

section Monotonicity

omit [DecidableEq κ]

theorem Correct.mono {asks asks' : List Ask}
    (hmono : ∀ (n : ℕ) ask, asks[n]? = some ask → asks'[n]? = some ask) {n : ℕ}
    {response : ResponseModule} (h : Correct d asks n response) : Correct d asks' n response := by
  intro havailable
  obtain ⟨ask, hask, hresult⟩ := h havailable
  exact ⟨ask, hmono n ask hask, hresult⟩

theorem Supported.mono {n : ℕ} {results : List Int32} (h : Supported d s n results)
    (hasks : ∀ ask, s.asks[n]? = some ask → s'.asks[n]? = some ask)
    (hspent : ∀ k, n < s.asks.length → Spent (s.server k) (s.inbox k) (s.outbox k) n →
      Spent (s'.server k) (s'.inbox k) (s'.outbox k) n) : Supported d s' n results := by
  obtain ⟨ask, hask, ballots, hresults, hnodup, hballots⟩ := h
  have hlt := (List.getElem?_eq_some_iff.mp hask).1
  refine ⟨ask, hasks ask hask, ballots, hresults, hnodup, ?_⟩
  intro ballot hmem
  obtain ⟨hservice, hhonest, hsp⟩ := hballots ballot hmem
  exact ⟨hservice, hhonest, hspent ballot.1 hlt hsp⟩

theorem asks_of_step {event : Event} {session : Session nmr}
    (h : s.session.step event = some session) :
    session.ledger.asks = (s.session.ledger.opened event).asks := by
  obtain ⟨b, -, -, rfl⟩ := Session.step_eq_some h
  exact Ledger.asks_observeAll _ _

theorem asks_mono_of_step {event : Event} {session : Session nmr}
    (h : s.session.step event = some session) (n : ℕ) (ask : Ask) (hask : s.asks[n]? = some ask) :
    session.ledger.asks[n]? = some ask := by
  rw [asks_of_step h]
  cases event with
  | request c request now later =>
      exact (Ledger.asks_ask_of_lt (List.getElem?_eq_some_iff.mp hask).1 request).trans hask
  | registration rm now => exact hask
  | response index reply c => exact hask
  | heartbeat i now later => exact hask
  | sweep now => exact hask

/-! ## The broker handles an event -/

/-- A copy gets pings, and requests as the client made them. -/
theorem dealer_mem_sends {event : Event} {session : Session nmr}
    (h : s.session.step event = some session) {index : ℕ} {envelope : ClientId}
    {sm : ServiceModule} (hmem : Output.dealer index envelope sm ∈ s.sends event) :
    sm.heartbeat = true ∨ ∃ c request now later record b,
      event = .request c request now later ∧ s.session.broker = some b ∧
        b.db.servicesDb request.service = some record ∧ sm = Broker.forward record request := by
  obtain ⟨b, hb, -, -⟩ := Session.step_eq_some h
  rw [sends, hb] at hmem
  dsimp only at hmem
  cases event with
  | registration rm now => cases Broker.mem_getRegistration_sent hmem
  | request c request now later =>
      refine Or.inr ⟨c, request, now, later, ?_⟩
      change _ ∈ (Broker.getRequest Broker.everyone b c request now later).sent at hmem
      cases hrecord : b.db.servicesDb request.service with
      | none =>
          rw [Broker.getRequest_of_none hrecord] at hmem
          simp at hmem
      | some record =>
          have heq := Broker.mem_getRequest_sent hrecord hmem
          rw [Output.dealer.injEq] at heq
          exact ⟨record, b, rfl, hb, hrecord, heq.2.2⟩
  | response dealerIndex reply c =>
      change _ ∈ (Broker.getResponse Broker.everyone b dealerIndex reply c).sent at hmem
      obtain ⟨⟨response, heq⟩, -⟩ := Broker.decides_of_mem_sent hmem
      cases heq
  | heartbeat i now later =>
      obtain ⟨seqId, heq⟩ := Broker.mem_heartbeat_sent hmem
      rw [Output.dealer.injEq] at heq
      exact Or.inl (by rw [heq.2.2]; rfl)
  | sweep now =>
      obtain ⟨_, _, _, _, _, _, _, _, _, heq⟩ := Broker.expired_of_mem_sent hmem
      cases heq

/-- What the queues get is fresh. -/
theorem fresh_of_step {event : Event} {session : Session nmr}
    (h : s.session.step event = some session) {new : List Delivery}
    (hnew : ∀ m ∈ new, m.ask = s.asks.length ∧
      ∃ index, Output.dealer index m.envelope m.sm ∈ s.sends event) :
    Fresh s.asks session.ledger.asks new := by
  have hforward : ∀ m ∈ new, m.IsRequest → ∃ c request now later record b,
      event = .request c request now later ∧ s.session.broker = some b ∧
        b.db.servicesDb request.service = some record ∧
        m.sm = Broker.forward record request := by
    intro m hm hrequest
    obtain ⟨-, index, hmem⟩ := hnew m hm
    rcases dealer_mem_sends h hmem with hping | hforward
    · rw [Delivery.IsRequest, hping] at hrequest
      exact Bool.noConfusion hrequest
    · exact hforward
  refine ⟨asks_mono_of_step h, fun m hm _ => (hnew m hm).1, fun m hm hrequest => ?_,
    fun m hm m' hm' hrequest hrequest' => ?_⟩
  · obtain ⟨c, request, now, later, record, b, rfl, -, -, hsm⟩ := hforward m hm hrequest
    refine ⟨⟨c, request⟩, ?_, by rw [hsm]; rfl⟩
    rw [asks_of_step h, (hnew m hm).1]
    exact Ledger.asks_ask_length request
  · obtain ⟨c, request, now, later, record, b, rfl, hb, hrecord, hsm⟩ := hforward m hm hrequest
    obtain ⟨c', request', now', later', record', b', heq, hb', hrecord', hsm'⟩ :=
      hforward m' hm' hrequest'
    rw [Event.request.injEq] at heq
    obtain ⟨-, rfl, -, -⟩ := heq
    rw [hb, Option.some.injEq] at hb'
    subst hb'
    rw [hrecord, Option.some.injEq] at hrecord'
    rw [hsm, hsm', hrecord']

end Monotonicity

/-- **The broker handles an event.**  The records are as before the reply was taken from its
queue; everything else is the state `t` in which the event is handled. -/
theorem Invariant.perform (h : s.session.InOrder (Supported d s) (Correct d s.asks))
    (hsession : t.session = s.session)
    (hcopies : ∀ k, CopyOk d k t.asks (t.server k) (t.inbox k) (t.outbox k))
    (hmasked : Masked nmr d)
    (hmono : ∀ n results, Supported d s n results → Supported d t n results) {event : Event}
    (hcounted : ∀ index reply c, event = .response index reply c → ∀ b ∈ s.session.broker,
      b.Counts reply c → ∀ n results, s.session.ledger.Waiting c n → Supported d s n results →
        Supported d t n (results ++ [reply.result]))
    (haligned : s.session.SweepAligned event) (hperform : t.perform event = some s') :
    Invariant d s' := by
  obtain ⟨hstep, hposted⟩ := performed_of_some hperform
  have hfresh : ∀ k, ∃ new, s'.inbox k = t.inbox k ++ new ∧ Fresh t.asks s'.asks new := by
    intro k
    obtain ⟨new, hnew, hall⟩ := hposted.inbox k
    exact ⟨new, hnew, fresh_of_step hstep hall⟩
  have hgrow : ∀ n results, Supported d t n results → Supported d s' n results := by
    intro n results hsupported
    refine hsupported.mono (fun ask => asks_mono_of_step hstep n ask) ?_
    intro k hn hspent
    obtain ⟨new, hnew, hall⟩ := hfresh k
    rw [hposted.server_eq, hposted.outbox_eq, hnew]
    exact hspent.grow hall hn
  rw [hsession] at hstep
  have hsound : s.session.InOrder (Supported d s) (Correct d s'.asks) :=
    ⟨h.1.imp fun n response => Correct.mono (asks_mono_of_step hstep), h.2⟩
  refine ⟨hsound.step (fun n results hs => hgrow n results (hmono n results hs))
    (justifies hmasked s') ?_ ?_ haligned hstep, fun k => ?_⟩
  · rintro c request now later rfl
    refine ⟨⟨c, request⟩, ?_, [], rfl, List.nodup_nil, fun ballot hmem => by simp at hmem⟩
    rw [asks, asks_of_step hstep]
    exact Ledger.asks_ask_length request
  · intro index reply c hevent b hb hcounts n results hwaiting hs
    exact hgrow n _ (hcounted index reply c hevent b hb hcounts n results hwaiting hs)
  · obtain ⟨new, hnew, hall⟩ := hfresh k
    rw [hposted.server_eq, hposted.outbox_eq, hnew]
    exact (hcopies k).grow hall

/-! ## One action -/

/-- What a timely run asks of an action: a reply counts for the request it answers only, a
sweep is aligned, and a copy is not handed the last sequence number twice. -/
def Timely (s : System nmr κ) : Action κ → Prop
  | .deliver k _ =>
      match s.session.broker, s.outbox k with
      | some b, a :: _ => b.Counts a.reply a.envelope →
          s.session.ledger.latest a.envelope = some a.ask
      | _, _ => True
  | .process k _ _ =>
      match s.inbox k with
      | m :: rest => m.IsRequest → m.sm.seqId = -1 → ∀ m' ∈ rest, m'.IsRequest → m'.ask ≠ m.ask
      | [] => True
  | .sweep now => s.session.SweepAligned (.sweep now)
  | _ => True

omit [DecidableEq κ] in
theorem invariant_init (d : Deployment κ) (portRouter portReg : UInt16) :
    Invariant d (init portRouter portReg : System nmr κ) where
  inOrder := Session.inOrder_init _ _ portRouter portReg
  copies k := copyOk_init d k _

/-- A copy handles its first message. -/
theorem Invariant.process (h : Invariant d s) {k : κ} {scratch : Int32} {flag : Bool}
    (htimely : s.Timely (.process k scratch flag))
    (hstep : s.processFirst d k scratch flag = some s') : Invariant d s' := by
  unfold processFirst at hstep
  cases hinbox : s.inbox k with
  | nil =>
      rw [hinbox] at hstep
      cases hstep
  | cons m rest =>
      rw [hinbox] at hstep
      dsimp only at hstep
      rw [← Option.some.inj hstep]
      have hcopy := h.copies k
      rw [hinbox] at hcopy
      rw [Timely, hinbox] at htimely
      refine ⟨⟨h.inOrder.1, fun b hb => (h.inOrder.2 b hb).imp fun n results hs => ?_⟩,
        fun other => ?_⟩
      · refine hs.mono (fun ask hask => hask) ?_
        intro other hn hspent
        by_cases hother : other = k
        · subst hother
          rw [hinbox] at hspent
          simp only [Function.update_self]
          exact hspent.receive hcopy.sorted_head scratch flag
        · simp only [Function.update_of_ne hother]
          exact hspent
      · by_cases hother : other = k
        · subst hother
          simp only [Function.update_self]
          exact hcopy.receive htimely scratch flag
        · simp only [Function.update_of_ne hother]
          exact h.copies other

/-- Taking a reply from its queue leaves every ballot spent. -/
theorem spent_of_take {k : κ} {a : Answer} {later : List Answer} (houtbox : s.outbox k = a :: later)
    {other : κ} {n : ℕ} (h : Spent (s.server other) (s.inbox other) (s.outbox other) n) :
    Spent (s.server other) (s.inbox other) (Function.update s.outbox k later other) n := by
  by_cases hother : other = k
  · subst hother
    rw [Function.update_self]
    rw [houtbox] at h
    exact h.take
  · rw [Function.update_of_ne hother]
    exact h

/-- The reply of a copy is a further ballot: the copy had it under way, so it has not voted
yet. -/
theorem Supported.vote {k : κ} {a : Answer} {later : List Answer} {results : List Int32}
    (h : Supported d s a.ask results) (houtbox : s.outbox k = a :: later)
    (hcopy : CopyOk d k s.asks (s.server k) (s.inbox k) (a :: later)) (hplain : a.Plain)
    (hsame : ∀ ask, s.asks[a.ask]? = some ask → a.reply.service = ask.request.service) :
    Supported d { s with outbox := Function.update s.outbox k later } a.ask
      (results ++ [a.reply.result]) := by
  obtain ⟨ask, hask, ballots, rfl, hnodup, hballots⟩ := h
  obtain ⟨ask', hask', hservice, hhonest⟩ := hcopy.honest a List.mem_cons_self hplain
  rw [hask, Option.some.injEq] at hask'
  subst hask'
  rw [hsame ask hask] at hservice
  refine ⟨ask, hask, ballots ++ [(k, a.reply.result)], by simp, ?_, ?_⟩
  · rw [List.map_append, List.nodup_append]
    refine ⟨hnodup, List.nodup_singleton _, ?_⟩
    intro other hother other' hother' heq
    obtain ⟨ballot, hballot, rfl⟩ := List.mem_map.mp hother
    have hk : ballot.1 = k := heq.trans (by simpa using hother')
    have hunspent := (hballots ballot hballot).2.2.2 a (by rw [hk, houtbox]; simp) hplain
    exact hunspent rfl
  · intro ballot hmem
    rcases List.mem_append.mp hmem with hmem | hmem
    · obtain ⟨hs, hv, hsp⟩ := hballots ballot hmem
      exact ⟨hs, hv, spent_of_take houtbox hsp⟩
    · rw [List.mem_singleton.mp hmem]
      refine ⟨hservice.symm, ?_, ?_⟩
      · intro hnot
        rw [hservice]
        exact hhonest hnot
      · simp only [Function.update_self]
        exact hcopy.spent_of_take hplain

/-- The first reply of a copy reaches the broker. -/
theorem Invariant.deliver (h : Invariant d s) (hmasked : Masked nmr d) {k : κ} {index : ℕ}
    (htimely : s.Timely (.deliver k index)) {a : Answer} {later : List Answer}
    (houtbox : s.outbox k = a :: later)
    (hstep : ({ s with outbox := Function.update s.outbox k later } : System nmr κ).perform
      (.response index a.reply a.envelope) = some s') : Invariant d s' := by
  have hcopy := h.copies k
  rw [houtbox] at hcopy
  refine Invariant.perform (t := { s with outbox := Function.update s.outbox k later })
    h.inOrder rfl ?_ hmasked ?_ ?_ ?_ hstep
  · intro other
    by_cases hother : other = k
    · subst hother
      simp only [Function.update_self]
      exact hcopy.take
    · simp only [Function.update_of_ne hother]
      exact h.copies other
  · intro n results hs
    exact hs.mono (fun ask hask => hask) fun other _ => spent_of_take houtbox
  · rintro _ _ _ heq b hb hcounts n results hwaiting hs
    rw [Event.response.injEq] at heq
    obtain ⟨-, rfl, rfl⟩ := heq
    -- the reply counts, so it answers the request that waits
    have hn : n = a.ask := by
      rw [Timely, Option.mem_def.mp hb, houtbox] at htimely
      exact Option.some.inj (hwaiting.1.symm.trans (htimely hcounts))
    subst hn
    apply hs.vote houtbox hcopy ⟨hcounts.1, hcounts.2.1⟩
    -- and the record it counts for is filed under the service of that request
    intro ask hask
    obtain ⟨record, hrecord⟩ := List.exists_mem_of_ne_nil _ hcounts.2.2
    obtain ⟨hmem, hclient⟩ := mem_ofClient.mp hrecord
    obtain ⟨m, other, hw, hother, heq, -⟩ := (h.inOrder.2 b hb).owner _ record hmem
    rw [hclient] at hw
    rw [hw.eq hwaiting, hask, Option.some.injEq] at hother
    rw [← heq, hother]
  · exact trivial

/-- **One timely action keeps the invariant.** -/
theorem Invariant.step (h : Invariant d s) (hmasked : Masked nmr d) {action : Action κ}
    (htimely : s.Timely action) (hstep : s.step d action = some s') : Invariant d s' := by
  have hplain : ∀ event : Event, (∀ index reply c, event ≠ .response index reply c) →
      s.session.SweepAligned event → ∀ t, s.perform event = some t →
        Invariant d t := fun _ hno haligned _ hperform =>
    Invariant.perform h.inOrder rfl h.copies hmasked (fun _ _ hs => hs)
      (fun index reply c heq => absurd heq (hno index reply c)) haligned hperform
  cases action with
  | register k signature now =>
      simp only [System.step] at hstep
      split at hstep
      · obtain ⟨t, ht, hstep⟩ := Option.bind_eq_some_iff.mp hstep
        rw [← Option.some.inj hstep]
        have hinvariant := hplain (.registration _ _) (by simp) trivial t ht
        exact ⟨hinvariant.inOrder, hinvariant.copies⟩
      · cases hstep
  | connect k index =>
      simp only [System.step] at hstep
      split at hstep
      · rw [← Option.some.inj hstep]
        exact ⟨h.inOrder, h.copies⟩
      · cases hstep
  | request c request now later => exact hplain (.request _ _ _ _) (by simp) trivial s' hstep
  | process k scratch flag => exact h.process htimely hstep
  | deliver k index =>
      simp only [System.step] at hstep
      split at hstep
      · cases hstep
      · rename_i a later houtbox
        exact h.deliver hmasked htimely houtbox hstep
  | heartbeat i now later => exact hplain (.heartbeat _ _ _) (by simp) trivial s' hstep
  | sweep now => exact hplain (.sweep _) (by simp) htimely s' hstep

/-! ## Integrity -/

/-- Every response with status `SERVICE_AVAILABLE` carries the value for its request. -/
def Integrity (d : Deployment κ) (s : System nmr κ) : Prop :=
  ∀ entry ∈ s.session.ledger.responses, Correct d s.asks entry.1 entry.2

/-- **Integrity of every timely run**: with at most `(nmr - 1) / 2` faulty copies of each
service, whatever the broker answers as available is the value for that request. -/
theorem integrity_of_timely (hmasked : Masked nmr d) (portRouter portReg : UInt16)
    (actions : List (Action κ))
    (htimely : Machine.Along (System.step d) Timely (init portRouter portReg : System nmr κ)
      actions) {s : System nmr κ}
    (hrun : Machine.run (System.step d) (init portRouter portReg) actions = some s) :
    s.Integrity d :=
  have hinvariant := Machine.run_invariant (P := Invariant d)
    (fun _ _ _ h htimely hstep => h.step hmasked htimely hstep)
    (invariant_init d portRouter portReg) htimely hrun
  hinvariant.inOrder.1.good_of_mem

instance Timely.decidable (s : System nmr κ) : ∀ action, Decidable (s.Timely action)
  | .deliver k index =>
      match hb : s.session.broker, hk : s.outbox k with
      | some b, a :: later => decidable_of_iff (b.Counts a.reply a.envelope →
          s.session.ledger.latest a.envelope = some a.ask) (by simp [Timely, hb, hk])
      | some b, [] => .isTrue (by simp [Timely, hk])
      | none, _ => .isTrue (by simp [Timely, hb])
  | .process k scratch flag =>
      match hk : s.inbox k with
      | m :: rest => decidable_of_iff (m.IsRequest → m.sm.seqId = -1 →
          ∀ m' ∈ rest, m'.IsRequest → m'.ask ≠ m.ask) (by simp [Timely, hk])
      | [] => .isTrue (by simp [Timely, hk])
  | .sweep now => inferInstanceAs (Decidable (s.session.SweepAligned (.sweep now)))
  | .register _ _ _ => .isTrue trivial
  | .connect _ _ => .isTrue trivial
  | .request _ _ _ _ => .isTrue trivial
  | .heartbeat _ _ _ => .isTrue trivial

/-- Two requests with different parameters; copy `2` is faulty, and its answer to the first
request arrives before the second one is made. -/
def timelyRun : List (Action (Fin 3)) :=
  deployed ++ [asking 7 1 0] ++ working copy2 ++ working copy0 ++ working copy1 ++ [asking 7 2 0] ++
    working copy0 ++ working copy1 ++ working copy2

theorem integrity_of_timely_timelyRun :
    ∃ s, Machine.run (System.step (threeCopies {copy2})) (init 5559 5555 : System 3 (Fin 3))
      timelyRun = some s ∧ s.Integrity (threeCopies {copy2}) := by
  have hmasked : Masked 3 (threeCopies {copy2}) := fun service =>
    (Finset.card_filter_le _ _).trans (by decide)
  have hrun : (Machine.run (System.step (threeCopies {copy2})) (init 5559 5555 : System 3 (Fin 3))
      timelyRun).isSome := by decide +kernel
  exact ⟨_, (Option.some_get hrun).symm, integrity_of_timely hmasked 5559 5555 timelyRun
    (by decide +kernel) (Option.some_get hrun).symm⟩

/-- Copy `2` is slow: it answers two requests for `1` only when the client has asked for
`2`. -/
def slowCopyRun : List (Action (Fin 3)) :=
  deployed ++ [asking 7 1 0] ++ working copy0 ++ working copy1 ++ [asking 7 1 0] ++ working copy0 ++
    working copy1 ++ [asking 7 2 0] ++ working copy2 ++ working copy2

/-- **A majority of late answers decides the wrong request**, with no faulty copy at all. -/
theorem stale_majority :
    ¬ ∀ (nmr : UInt8) (d : Deployment (Fin 3)), 1 ≤ nmr → Masked nmr d →
      ∀ (portRouter portReg : UInt16) (actions : List (Action (Fin 3))) (s : System nmr (Fin 3)),
        Machine.run (System.step d) (init portRouter portReg) actions = some s →
          s.Integrity d := by
  intro h
  have hmasked : Masked 3 (threeCopies ∅) := fun service =>
    (Finset.card_filter_le _ _).trans (by decide)
  have hlast : (Machine.run (System.step (threeCopies ∅)) (init 5559 5555 : System 3 (Fin 3))
      slowCopyRun).map (fun s => (s.session.ledger.responses.getLast?, s.asks[2]?)) =
      some (some (2, ⟨.serviceAvailable, some 1⟩),
        some ⟨7, ⟨0, Vector.replicate paramSize 2⟩⟩) := by decide +kernel
  obtain ⟨s, hrun, hstate⟩ := Option.map_eq_some_iff.mp hlast
  rw [Prod.mk.injEq] at hstate
  obtain ⟨ask, hask, hresult⟩ := h 3 (threeCopies ∅) (by decide) hmasked 5559 5555 slowCopyRun s
    hrun _ (List.mem_of_getLast? hstate.1) rfl
  dsimp only at hask hresult
  rw [hstate.2, Option.some.injEq] at hask
  rw [← hask] at hresult
  exact absurd hresult (by decide +kernel)

end ReliableService.System
