import ReliableService.Model.World
import ReliableService.Network.Integrity
import ReliableService.Registration.Ports

/-!
# The services of different brokers

A copy that has not found its broker dead yet keeps the port the old broker told it, and the
new broker may bind that port for another service: then it hands the requests for that service
to a copy of the wrong one (`foreign_request`).

`Separated` is what keeps the services apart.  A copy is connected to the socket of its own
service only: the broker that told it the port gives no other service the same one, and where
an earlier broker told it, `Unmixed` asks that the running one gives the port to the service of
the copy too.
-/

namespace ReliableService

namespace System

variable {nmr : UInt8} {κ : Type} [DecidableEq κ] {d : Deployment κ} {s s' : System nmr κ}

/-! ## Who gets a message -/

/-- What holds of the messages in the queues, and of a new one at every peer of its socket, holds
of the messages in the queues afterwards. -/
theorem inbox_of_post {P : κ → Delivery → Prop} {ask : ℕ} {output : Output}
    (hnew : ∀ index envelope sm, output = .dealer index envelope sm →
      ∀ k ∈ (s.dealers index).peers, P k ⟨envelope, sm, ask⟩)
    (hold : ∀ k, ∀ m ∈ s.inbox k, P k m) : ∀ k, ∀ m ∈ (post ask s output).inbox k, P k m := by
  intro k m hm
  cases output with
  | dealer index envelope sm =>
      by_cases hready : (s.dealers index).Ready
      · rw [post_dealer hready] at hm
        simp only [Function.update_apply] at hm
        split_ifs at hm with hk
        · rw [← hk, List.mem_append, List.mem_singleton] at hm
          rcases hm with hm | rfl
          · exact hold k m hm
          · exact hnew index envelope sm rfl k (hk ▸ List.getElem_mem hready)
        · exact hold k m hm
      · rw [post_dealer_of_not_ready hready] at hm
        exact hold k m hm
  | router c response => exact hold k m hm
  | reg port => exact hold k m hm

theorem inbox_of_foldl {P : κ → Delivery → Prop} {ask : ℕ} {sent : List Output}
    (hnew : ∀ index envelope sm, Output.dealer index envelope sm ∈ sent →
      ∀ k ∈ (s.dealers index).peers, P k ⟨envelope, sm, ask⟩)
    (hold : ∀ k, ∀ m ∈ s.inbox k, P k m) (hs' : s' = sent.foldl (post ask) s) :
    ∀ k, ∀ m ∈ s'.inbox k, P k m := by
  induction sent generalizing s with
  | nil =>
      rw [hs']
      exact hold
  | cons output sent ih =>
      have hone := posted_cons (posted_nil ask (post ask s output))
      refine ih ?_ (inbox_of_post ?_ hold) hs'
      · intro index envelope sm hmem k hk
        rw [hone.peers_eq] at hk
        exact hnew index envelope sm (List.mem_cons_of_mem _ hmem) k hk
      · rintro index envelope sm rfl
        exact hnew index envelope sm List.mem_cons_self

/-! ## What keeps services apart -/

/-- The message is no request for another service. -/
def IsFor (asks : List Ask) (service : ServiceType) (m : Delivery) : Prop :=
  m.IsRequest → ∃ ask, asks[m.ask]? = some ask ∧ ask.request.service = service

/-- A broker among the copies: a socket is connected to copies of its own service, and the
port it told a copy is that of the service of the copy. -/
structure Separates (d : Deployment κ) (services : Finset ServiceType) (told : κ → Bool)
    (s : System nmr κ) (b : Broker nmr) : Prop where
  tabled : b.Tabled
  bound : b.Bound
  numbered : ∃ known, b.Numbered known ∧ ∀ service ∈ known, service ∈ services
  connected : ∀ index, ∀ k ∈ (s.dealers index).peers,
    b.availableServices[index]? = some (d.service k)
  told : ∀ k port, told k = true → s.port k = some port →
    ∃ record, b.db.servicesDb (d.service k) = some record ∧ record.dealerSocket = port

/-- The services are separate. -/
structure Separated (d : Deployment κ) (services : Finset ServiceType) (told : κ → Bool)
    (s : System nmr κ) : Prop where
  inbox : ∀ k, ∀ m ∈ s.inbox k, IsFor s.asks (d.service k) m
  outbox : ∀ k, ∀ a ∈ s.outbox k, a.reply.service = d.service k
  broker : ∀ b ∈ s.session.broker, Separates d services told s b

/-- What an event needs for that: a service that registers is one of those there are, and a
request for a service is not forwarded through the socket of another one. -/
def KeepsApart (services : Finset ServiceType) (b : Broker nmr) : Event → Prop
  | .registration rm _ => rm.service ∈ services
  | .request _ request _ _ => b.Indexed request.service
  | _ => True

variable {services : Finset ServiceType} {told : κ → Bool} {event : Event}

section

omit [DecidableEq κ]

/-- A broker that has just been started. -/
theorem separates_init (portRouter portReg : UInt16)
    (hpeers : ∀ index, (s.dealers index).peers = []) :
    Separates d services (fun _ => false) s (Broker.init portRouter portReg) where
  tabled := Broker.tabled_init portRouter portReg
  bound := by simp [Broker.Bound, Broker.init]
  numbered := ⟨[], Broker.numbered_init portRouter portReg, by simp⟩
  connected index k hk := by
    rw [hpeers] at hk
    cases hk
  told := nofun

/-- The sockets have no new peers, and the copies no new ports. -/
theorem Separates.mono {b : Broker nmr} (h : Separates d services told s b)
    (hpeers : ∀ index, (s'.dealers index).peers ⊆ (s.dealers index).peers)
    (hport : ∀ k port, s'.port k = some port → s.port k = some port) :
    Separates d services told s' b where
  tabled := h.tabled
  bound := h.bound
  numbered := h.numbered
  connected index k hk := h.connected index k (hpeers index hk)
  told k port htold hk := h.told k port htold (hport k port hk)

/-- A broker that handles an event. -/
theorem Separates.handle {b b' : Broker nmr} (h : Separates d services told s b)
    (happart : KeepsApart services b event)
    (hb' : (b.handle Broker.everyone event).result = .ok b') :
    Separates d services told s b' where
  tabled := h.tabled.handle hb'
  bound := h.bound.handle h.tabled hb'
  numbered := by
    obtain ⟨known, hnumbered, hsubset⟩ := h.numbered
    obtain ⟨known', hnumbered', hgrows⟩ := hnumbered.handle hb'
    refine ⟨known', hnumbered', fun service hmem => ?_⟩
    rcases hgrows service hmem with hmem | ⟨rm, now, rfl, rfl⟩
    · exact hsubset service hmem
    · exact happart
  connected index k hk := (Broker.keeps_of_handle h.tabled hb' index _ (h.connected index k hk)).1
  told k port htold hport := by
    obtain ⟨record, hrecord, hsocket⟩ := h.told k port htold hport
    obtain ⟨record', hrecord', hsame⟩ := Broker.dealerSocket_of_handle hb' hrecord
    exact ⟨record', hrecord', hsame.trans hsocket⟩

/-- A request that is forwarded reaches the copies of its service. -/
theorem Separates.isFor {b : Broker nmr} (h : Separates d services told s b)
    (hb : s.session.broker = some b) (happart : KeepsApart services b event) {session : Session nmr}
    (hsession : s.session.step event = some session) {index : ℕ} {envelope : ClientId}
    {sm : ServiceModule} (hmem : Output.dealer index envelope sm ∈ s.sends event) {k : κ}
    (hk : k ∈ (s.dealers index).peers) :
    IsFor session.ledger.asks (d.service k) ⟨envelope, sm, s.asks.length⟩ := by
  intro hrequest
  rcases dealer_mem_sends hsession hmem with hping | ⟨c, request, now, later, record, b', heq,
      hb', hrecord, -⟩
  · rw [Delivery.IsRequest, hping] at hrequest
    cases hrequest
  · subst heq
    obtain rfl : b = b' := Option.some.inj (hb.symm.trans hb')
    refine ⟨⟨c, request⟩, ?_, ?_⟩
    · rw [asks_of_step hsession]
      exact Ledger.asks_ask_length request
    · have hsent : Output.dealer index envelope sm ∈
          (Broker.getRequest Broker.everyone b c request now later).sent := by
        rw [sends, hb] at hmem
        exact hmem
      have hindex := Broker.mem_getRequest_sent hrecord hsent
      rw [Output.dealer.injEq] at hindex
      have hfound : b.db.findRegistration request.service = some record.dealerSktIndex := by
        rw [ServiceDatabase.findRegistration, hrecord, Option.map_some]
      apply Eq.symm
      apply happart _ hfound
      rw [← hindex.1]
      exact h.connected index k hk

end

/-- **The broker handles an event.** -/
theorem Separated.perform (h : Separated d services told s) (event : Event)
    (happart : ∀ b ∈ s.session.broker, KeepsApart services b event)
    (hperform : s.perform event = some s') : Separated d services told s' := by
  obtain ⟨hsession, hposts⟩ := perform_eq_some hperform
  have hposted := (performed_of_some hperform).posted
  obtain ⟨b, hb, -, hsame⟩ := Session.step_eq_some hsession
  have hseparates := h.broker b hb
  constructor
  · refine inbox_of_foldl (P := fun k => IsFor s'.session.ledger.asks (d.service k)) ?_ ?_ hposts
    · intro index envelope sm hmem k hk
      exact hseparates.isFor hb (happart b hb) hsession hmem hk
    · intro k m hm hrequest
      obtain ⟨ask, hask, hservice⟩ := h.inbox k m hm hrequest
      exact ⟨ask, asks_mono_of_step hsession m.ask ask hask, hservice⟩
  · rw [hposted.outbox_eq]
    exact h.outbox
  · intro b' hb'
    rw [hsame] at hb'
    have hresult := Outcome.toOption_eq_some.mp hb'
    refine (hseparates.handle (happart b hb) hresult).mono (fun index => ?_) fun k port hport => ?_
    · rw [hposted.peers_eq]
      exact List.Subset.refl _
    · rw [hposted.port_eq] at hport
      exact hport

/-! ## The sockets of the copies -/

omit [DecidableEq κ] in
theorem Separates.length_le {b : Broker nmr} (h : Separates d services told s b)
    (hfew : services.card ≤ UInt16.size) :
    ∃ known, b.Numbered known ∧ known.length ≤ UInt16.size := by
  obtain ⟨known, hnumbered, hsubset⟩ := h.numbered
  refine ⟨known, hnumbered, ?_⟩
  calc known.length = known.toFinset.card := (List.toFinset_card_of_nodup hnumbered.nodup).symm
    _ ≤ services.card := Finset.card_le_card fun service hmem =>
        hsubset service (List.mem_toFinset.mp hmem)
    _ ≤ UInt16.size := hfew

omit [DecidableEq κ] in
/-- The socket on the port of a service is at the position of the service. -/
theorem Separates.position {b : Broker nmr} (h : Separates d services told s b)
    (hfew : services.card ≤ UInt16.size) {index : ℕ} {service : ServiceType}
    {record : ServiceRecord nmr} (hrecord : b.db.servicesDb service = some record)
    (hdealer : b.dealer[index]? = some record.dealerSocket) :
    b.availableServices[index]? = some service := by
  obtain ⟨known, hnumbered, hlength⟩ := h.length_le hfew
  have hlt : index < b.availableServices.length :=
    h.tabled.dealer_length ▸ (List.getElem?_eq_some_iff.mp hdealer).1
  have hi := List.getElem?_eq_getElem hlt
  obtain ⟨record', hrecord'⟩ := Option.ne_none_iff_exists'.mp
    (h.tabled.registered _ (List.mem_of_getElem? hi))
  have hbound := h.bound index _ record' hi hrecord'
  have hsame : record'.dealerSocket = record.dealerSocket :=
    Option.some.inj (hbound.symm.trans hdealer)
  rw [hi, hnumbered.port_inj hlength hrecord' hrecord hsame]

theorem reachable_eq_true {k : κ} {index : ℕ} {b : Broker nmr} (hb : s.session.broker = some b)
    (h : s.reachable k index = true) :
    ∃ port, s.port k = some port ∧ b.dealer[index]? = some port := by
  cases hk : s.port k with
  | none => simp [reachable, hk] at h
  | some port =>
      rw [reachable, hb, hk] at h
      simp only [Bool.decide_and, Bool.and_eq_true, decide_eq_true_eq] at h
      exact ⟨port, rfl, h.1⟩

/-- **The connection of a copy comes up.**  The socket it reaches has the port of its service. -/
theorem Separated.connect (h : Separated d services told s)
    (hfew : services.card ≤ UInt16.size) {k : κ} {index : ℕ}
    (hreachable : s.reachable k index = true)
    (hport : ∀ b ∈ s.session.broker, ∀ port ∈ s.port k,
      ∃ record, b.db.servicesDb (d.service k) = some record ∧ record.dealerSocket = port) :
    Separated d services told
      { s with dealers := Function.update s.dealers index ((s.dealers index).join k) } where
  inbox := h.inbox
  outbox := h.outbox
  broker b hb := by
    change s.session.broker = some b at hb
    have hseparates := h.broker b hb
    refine ⟨hseparates.tabled, hseparates.bound, hseparates.numbered, fun other k' hk' => ?_,
      hseparates.told⟩
    simp only [Function.update_apply] at hk'
    split_ifs at hk' with hother
    · rw [Rotation.join, List.mem_append, List.mem_singleton, ← hother] at hk'
      rcases hk' with hk' | rfl
      · exact hseparates.connected other k' hk'
      · obtain ⟨port, hk, hdealer⟩ := reachable_eq_true hb hreachable
        obtain ⟨record, hrecord, hsocket⟩ := hport b hb port hk
        rw [hother]
        exact hseparates.position hfew hrecord (hsocket ▸ hdealer)
    · exact hseparates.connected other k' hk'

theorem Separated.close (h : Separated d services told s) (k : κ) :
    Separated d services told (s.close k) where
  inbox other m hm := by
    simp only [System.close, Function.update_apply] at hm
    split_ifs at hm
    · cases hm
    · exact h.inbox other m hm
  outbox other a ha := by
    simp only [System.close, Function.update_apply] at ha
    split_ifs at ha
    · cases ha
    · exact h.outbox other a ha
  broker b hb := by
    refine (h.broker b hb).mono (fun index other hother => ?_) fun other port hport => ?_
    · exact Rotation.mem_of_mem_leave hother
    · simp only [System.close, Function.update_apply] at hport
      split_ifs at hport
      exact hport

omit [DecidableEq κ] in
theorem mem_of_handedPort {sent : List Output} {port : UInt16} (h : handedPort sent = some port) :
    Output.reg port ∈ sent ∧ port ≠ regFail := by
  obtain ⟨output, hmem, hport⟩ := List.exists_of_findSome?_eq_some h
  cases output with
  | reg other =>
      dsimp only at hport
      split_ifs at hport with hfail
      obtain rfl := Option.some.inj hport
      exact ⟨hmem, hfail⟩
  | dealer index envelope sm => cases hport
  | router c response => cases hport

/-- **A copy registers**, and is told the port of its service. -/
theorem Separated.register (h : Separated d services told s) {k : κ} {signature : String}
    {now : Timespec} (hservice : d.service k ∈ services)
    (hstep : s.step d (.register k signature now) = some s') :
    Separated d services (Function.update told k (s'.port k).isSome) s' := by
  simp only [System.step] at hstep
  split_ifs at hstep
  obtain ⟨t, hperform, hstep⟩ := Option.bind_eq_some_iff.mp hstep
  obtain rfl := Option.some.inj hstep
  have hnext := h.perform (.registration ⟨signature, d.service k⟩ now)
    (fun _ _ => hservice) hperform
  refine ⟨hnext.inbox, hnext.outbox, fun b' hb' => ?_⟩
  have hseparates := hnext.broker b' hb'
  refine ⟨hseparates.tabled, hseparates.bound, hseparates.numbered, hseparates.connected,
    fun other port htold hport => ?_⟩
  simp only [Function.update_apply] at htold hport
  split_ifs at htold hport with hother
  · subst hother
    obtain ⟨b, hb, -, hsession⟩ := Session.step_eq_some (perform_eq_some hperform).1
    rw [hsession] at hb'
    have hresult := Outcome.toOption_eq_some.mp hb'
    obtain ⟨hsent, hfail⟩ := mem_of_handedPort hport
    rw [sends, hb] at hsent
    obtain ⟨record, hrecord, hsocket⟩ := Broker.dealerSocket_of_reg hsent hfail
    refine ⟨record, ?_, hsocket⟩
    rw [Broker.handle_registration_db hresult]
    exact hrecord
  · exact hseparates.told other port htold hport

omit [DecidableEq κ] in
/-- A new broker is started. -/
theorem Separated.restart (h : Separated d services told s) (portRouter portReg : UInt16)
    (received sent : κ → ℕ) :
    Separated d services (fun _ => false) (s.restart portRouter portReg received sent) where
  inbox k m hm := h.inbox k m (List.mem_of_mem_take hm)
  outbox k a ha := h.outbox k a (List.mem_of_mem_drop ha)
  broker b hb := by
    obtain rfl := Option.some.inj hb
    exact separates_init portRouter portReg fun _ => rfl

/-- A copy handles its first message. -/
theorem Separated.process (h : Separated d services told s) {k : κ} {scratch : Int32} {flag : Bool}
    (hstep : s.processFirst d k scratch flag = some s') : Separated d services told s' := by
  unfold processFirst at hstep
  cases hinbox : s.inbox k with
  | nil =>
      rw [hinbox] at hstep
      cases hstep
  | cons m rest =>
      rw [hinbox] at hstep
      dsimp only at hstep
      obtain rfl := Option.some.inj hstep
      refine ⟨fun other m' hm' => ?_, fun other a ha => ?_, fun b hb => ?_⟩
      · simp only [Function.update_apply] at hm'
        split_ifs at hm' with hother
        · exact h.inbox other m' (by rw [hother, hinbox]; exact List.mem_cons_of_mem m hm')
        · exact h.inbox other m' hm'
      · simp only [Function.update_apply] at ha
        split_ifs at ha with hother
        · rw [List.mem_append, List.mem_singleton] at ha
          rcases ha with ha | rfl
          · exact h.outbox other a (hother ▸ ha)
          · rw [hother]
            exact d.reply_service k m.sm scratch flag _
        · exact h.outbox other a ha
      · exact (h.broker b hb).mono (fun _ => List.Subset.refl _) fun _ _ hport => hport

/-- The first reply of a copy is taken. -/
theorem Separated.take (h : Separated d services told s) {k : κ} {a : Answer} {rest : List Answer}
    (houtbox : s.outbox k = a :: rest) :
    Separated d services told { s with outbox := Function.update s.outbox k rest } where
  inbox := h.inbox
  outbox other a' ha' := by
    simp only [Function.update_apply] at ha'
    split_ifs at ha' with hother
    · exact h.outbox other a' (by rw [hother, houtbox]; exact List.mem_cons_of_mem a ha')
    · exact h.outbox other a' ha'
  broker b hb := (h.broker b hb).mono (fun _ => List.Subset.refl _) fun _ _ hport => hport

end System

namespace World

open ReliableService.System

variable {nmr : UInt8} {κ : Type} [DecidableEq κ] {d : Deployment κ} {w w' : World nmr κ}
  {services : Finset ServiceType} {action : WorldAction κ}

/-- What is asked of a run.  The port that an earlier broker told a copy is the one the running
broker gives to its service when the connection comes up, and the number of the socket of a
service that is requested is not the position of another service. -/
def Unmixed (d : Deployment κ) (w : World nmr κ) : WorldAction κ → Prop
  | .system (.connect k _) => w.told k = false → ∀ b ∈ w.system.session.broker,
      (b.db.servicesDb (d.service k)).map (·.dealerSocket) = w.system.port k
  | .system (.request _ request _ _) =>
      ∀ b ∈ w.system.session.broker, b.Indexed request.service
  | _ => True

/-- **Isolation**: the request a copy handles is one for its service, and a reply that comes
through the socket of a service counts for that service and changes no other. -/
def Isolated (d : Deployment κ) (w : World nmr κ) : WorldAction κ → Prop
  | .system (.process k _ _) =>
      ∀ m ∈ (w.system.inbox k).head?, IsFor w.system.asks (d.service k) m
  | .system (.deliver k index) => k ∈ (w.system.dealers index).peers →
      ∀ b ∈ w.system.session.broker, ∀ a ∈ (w.system.outbox k).head?,
        ∃ service, b.availableServices[index]? = some service ∧ service = a.reply.service ∧
          ∀ b', (b.handle Broker.everyone (.response index a.reply a.envelope)).result = .ok b' →
            ∀ other ≠ service, b'.db.servicesDb other = b.db.servicesDb other
  | _ => True

/-! ## One step -/

omit [DecidableEq κ] in
theorem isolated_of_separated (h : Separated d services w.told w.system)
    (action : WorldAction κ) : w.Isolated d action := by
  match action with
  | .system (.process k scratch flag) =>
      intro m hm
      exact h.inbox k m (List.mem_of_mem_head? hm)
  | .system (.deliver k index) =>
      intro hk b hb a ha
      have hreply := h.outbox k a (List.mem_of_mem_head? ha)
      refine ⟨d.service k, (h.broker b hb).connected index k hk, hreply.symm, ?_⟩
      intro b' hb' other hne
      have hresponse : (Broker.getResponse Broker.everyone b index a.reply a.envelope).result =
          .ok b' := hb'
      exact Broker.getResponse_of_ne hresponse (hreply ▸ hne)
  | .system (.register k signature now) => trivial
  | .system (.connect k index) => trivial
  | .system (.request c request now later) => trivial
  | .system (.heartbeat i now later) => trivial
  | .system (.sweep now) => trivial
  | .kill => trivial
  | .restart portRouter portReg received sent => trivial
  | .brokerDead k => trivial

omit [DecidableEq κ] in
theorem separated_init (portRouter portReg : UInt16) :
    Separated d services (init portRouter portReg : World nmr κ).told
      (init portRouter portReg : World nmr κ).system where
  inbox _ _ hm := by cases hm
  outbox _ _ ha := by cases ha
  broker b hb := by
    obtain rfl := Option.some.inj hb
    exact separates_init portRouter portReg fun _ => rfl

/-- A step within the time of one broker, other than a registration. -/
theorem separated_system (h : Separated d services w.told w.system)
    (hfew : services.card ≤ UInt16.size) {action : Action κ}
    (hregister : ∀ k signature now, action ≠ .register k signature now)
    (hunmixed : w.Unmixed d (.system action)) {s' : System nmr κ}
    (hstep : w.system.step d action = some s') : Separated d services w.told s' := by
  cases action with
  | register k signature now => exact absurd rfl (hregister k signature now)
  | connect k index =>
      simp only [System.step] at hstep
      split_ifs at hstep with hreachable
      obtain rfl := Option.some.inj hstep
      refine h.connect hfew hreachable fun b hb port hport => ?_
      by_cases htold : w.told k = true
      · exact (h.broker b hb).told k port htold hport
      · have hsame := hunmixed (by simpa using htold) b hb
        rw [Option.mem_def.mp hport] at hsame
        exact Option.map_eq_some_iff.mp hsame
  | request c request now later =>
      exact h.perform (.request c request now later) hunmixed hstep
  | process k scratch flag => exact h.process hstep
  | deliver k index =>
      simp only [System.step] at hstep
      split at hstep
      · cases hstep
      · rename_i a rest houtbox
        have htaken := h.take houtbox
        exact htaken.perform (.response index a.reply a.envelope) (fun _ _ => trivial) hstep
  | heartbeat i now later => exact h.perform (.heartbeat i now later) (fun _ _ => trivial) hstep
  | sweep now => exact h.perform (.sweep now) (fun _ _ => trivial) hstep

/-- **One step keeps the services separate.** -/
theorem separated_step (h : Separated d services w.told w.system)
    (hfew : services.card ≤ UInt16.size) (hservices : ∀ k, d.service k ∈ services)
    (hunmixed : w.Unmixed d action) (hstep : w.step d action = some w') :
    Separated d services w'.told w'.system := by
  cases action with
  | system action =>
      simp only [step] at hstep
      split_ifs at hstep
      by_cases hregister : ∃ k signature now, action = .register k signature now
      · obtain ⟨k, signature, now, rfl⟩ := hregister
        obtain ⟨system, hsystem, hstep⟩ := Option.bind_eq_some_iff.mp hstep
        obtain rfl := Option.some.inj hstep
        exact (h.close k).register (hservices k) hsystem
      · have hother : ∀ k signature now, action ≠ .register k signature now :=
          fun k signature now heq => hregister ⟨k, signature, now, heq⟩
        have hmap : (w.system.step d action).map
            (fun system => { w with system := system }) = some w' := by
          cases action with
          | register k signature now => exact absurd rfl (hother k signature now)
          | connect k index => exact hstep
          | request c request now later => exact hstep
          | process k scratch flag => exact hstep
          | deliver k index => exact hstep
          | heartbeat i now later => exact hstep
          | sweep now => exact hstep
        obtain ⟨system, hsystem, rfl⟩ := Option.map_eq_some_iff.mp hmap
        exact separated_system h hfew hother hunmixed hsystem
  | kill =>
      obtain rfl := Option.some.inj hstep
      exact ⟨h.inbox, h.outbox, nofun⟩
  | restart portRouter portReg received sent =>
      simp only [step] at hstep
      split_ifs at hstep
      obtain rfl := Option.some.inj hstep
      exact h.restart portRouter portReg received sent
  | brokerDead k =>
      simp only [step] at hstep
      split_ifs at hstep
      obtain rfl := Option.some.inj hstep
      exact h

/-! ## Every run -/

/-- **Services are isolated in every unmixed run**, however often the broker is replaced and
in whatever order the copies notice. -/
theorem isolated_of_unmixed (services : Finset ServiceType) (hfew : services.card ≤ UInt16.size)
    (hservices : ∀ k, d.service k ∈ services) (portRouter portReg : UInt16)
    (actions : List (WorldAction κ))
    (hunmixed : Machine.Along (step d) (Unmixed d) (init portRouter portReg : World nmr κ)
      actions) :
    Machine.Along (step d) (Isolated d) (init portRouter portReg : World nmr κ) actions :=
  Machine.along_of_invariant (P := fun w => Separated d services w.told w.system)
    (fun _ _ _ h hunmixed hstep => separated_step h hfew hservices hunmixed hstep)
    (fun _ action h _ => isolated_of_separated h action) (separated_init portRouter portReg)
    hunmixed

instance Unmixed.decidable (w : World nmr κ) : ∀ action, Decidable (w.Unmixed d action)
  | .system (.connect _ _) => inferInstanceAs (Decidable (_ → ∀ _ ∈ _, _ = _))
  | .system (.request _ _ _ _) => inferInstanceAs (Decidable (∀ _ ∈ _, Broker.Indexed _ _))
  | .system (.register _ _ _) => .isTrue trivial
  | .system (.process _ _ _) => .isTrue trivial
  | .system (.deliver _ _) => .isTrue trivial
  | .system (.heartbeat _ _ _) => .isTrue trivial
  | .system (.sweep _) => .isTrue trivial
  | .kill => .isTrue trivial
  | .restart _ _ _ _ => .isTrue trivial
  | .brokerDead _ => .isTrue trivial

/-! ### Two services -/

/-- Two copies each of the services `0` and `1`. -/
def twoServices : Deployment (Bool × Bool) where
  service := fun k => if k.1 then 1 else 0
  id := fun k => if k.2 then 1 else 0
  faulty := ∅
  body := fun service _ => service.toInt32

theorem twoServices_service_mem (k : Bool × Bool) :
    twoServices.service k ∈ ({0, 1} : Finset ServiceType) := by
  show (if k.1 then 1 else 0) ∈ _
  split <;> decide

/-- A copy gives the broker up and registers. -/
def registering (k : Bool × Bool) : List (WorldAction (Bool × Bool)) :=
  [.brokerDead k, .system (.register k "pippo" ⟨0, 0⟩)]

def connecting (k : Bool × Bool) (index : ℕ) : WorldAction (Bool × Bool) :=
  .system (.connect k index)

def requesting (c : ClientId) (service : ServiceType) : WorldAction (Bool × Bool) :=
  .system (.request c ⟨service, Vector.replicate paramSize 0⟩ ⟨0, 0⟩ ⟨0, 0⟩)

/-- All copies register in order and connect; the broker is killed and started again. -/
def replacedRun : List (WorldAction (Bool × Bool)) :=
  [.system (.register (false, false) "pippo" ⟨0, 0⟩),
    .system (.register (false, true) "pippo" ⟨0, 0⟩),
    .system (.register (true, false) "pippo" ⟨0, 0⟩),
    .system (.register (true, true) "pippo" ⟨0, 0⟩),
    connecting (false, false) 0, connecting (false, true) 0, connecting (true, false) 1,
    connecting (true, true) 1, requesting 7 1, .system (.process (true, false) 0 false),
    .system (.deliver (true, false) 1), .kill, .restart 5559 5555 (fun _ => 1) (fun _ => 0)]

/-- A copy of service `0` registers twice, so service `0` has its old port before the other
copy of it has noticed anything. -/
def unmixedRun : List (WorldAction (Bool × Bool)) :=
  replacedRun ++ registering (false, false) ++ registering (false, false) ++
    [connecting (false, true) 0, connecting (false, false) 0, requesting 8 0,
      .system (.process (false, true) 0 false), .system (.deliver (false, true) 0)]

theorem isolated_of_unmixed_unmixedRun :
    (Machine.run (step twoServices) (init 5559 5555 : World 2 (Bool × Bool)) unmixedRun).isSome ∧
      Machine.Along (step twoServices) (Isolated twoServices)
        (init 5559 5555 : World 2 (Bool × Bool)) unmixedRun :=
  ⟨by decide +kernel, isolated_of_unmixed {0, 1} (by decide) twoServices_service_mem 5559 5555
    unmixedRun (by decide +kernel)⟩

/-- The copies of service `1` register first and get the port of service `0`. -/
def foreignRun : List (WorldAction (Bool × Bool)) :=
  replacedRun ++ registering (true, false) ++ registering (true, true) ++
    [connecting (false, false) 0, connecting (true, false) 0, requesting 8 1]

/-- **A copy of service `0` handles a request for service `1`.** -/
theorem foreign_request :
    ¬ ∀ (nmr : UInt8) (d : Deployment (Bool × Bool)) (portRouter portReg : UInt16)
      (actions : List (WorldAction (Bool × Bool))),
        Machine.Along (step d) (Isolated d) (init portRouter portReg : World nmr (Bool × Bool))
          actions := by
  intro h
  have hlast : (Machine.run (step twoServices) (init 5559 5555 : World 2 (Bool × Bool))
      foreignRun).map (fun w => ((w.system.inbox (false, false)).head?.map
        (fun m => (m.sm.heartbeat, m.ask)), w.system.asks[1]?.map (·.request.service))) =
      some (some (false, 1), some 1) := by decide +kernel
  obtain ⟨w, hrun, hstate⟩ := Option.map_eq_some_iff.mp hlast
  rw [Prod.mk.injEq] at hstate
  obtain ⟨m, hm, hrequest⟩ := Option.map_eq_some_iff.mp hstate.1
  obtain ⟨ask, hask, hservice⟩ := Option.map_eq_some_iff.mp hstate.2
  rw [Prod.mk.injEq] at hrequest
  have hhandles : w.Isolated twoServices (.system (.process (false, false) 0 false)) :=
    (h 2 twoServices 5559 5555 (foreignRun ++ [.system (.process (false, false) 0 false)])).at hrun
  obtain ⟨ask', hask', hsame⟩ := hhandles m hm hrequest.1
  rw [hrequest.2, hask, Option.some.injEq] at hask'
  rw [← hask', hservice] at hsame
  exact absurd hsame (by decide)

end World

end ReliableService
