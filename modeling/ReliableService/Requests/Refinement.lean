import ReliableService.Lib.Desk
import ReliableService.Lib.Simulation
import ReliableService.Requests.Responses

/-!
# The broker is a desk

`Desk` is what the broker is for towards its clients: questions put to `nmr` voters, answered by
majority or refused.  Here the broker is shown to be one.  A record is a client's question
(`Represents`), a plain reply is a vote, a sweep is a tick of the clock, and the registration that
completes a service offers it; pings, pongs and duplicates are nothing (`Broker.view`).

Each handler that returns does what the desk does, and tells every client what the desk tells it,
so that a run of the broker and the run of the desk that it stands for have the same trace
(`refines_desk`).  The tables, the copies and their heartbeats do not show.
-/

namespace ReliableService

open ServiceRecord Majority

/-- The desk of the broker. -/
abbrev ClientDesk := Desk ClientId ServiceType Int32

abbrev ClientAction := DeskAction ClientId ServiceType Int32

variable {nmr : UInt8} {b b' : Broker nmr} {d d' : ClientDesk} {c : ClientId}
  {service : ServiceType} {a : ClientAction} {sent : List Output}

/-- `REQUEST_TIMEOUT` in nanoseconds. -/
def patience : ℤ := requestTimeout * 1000000

/-! ## What the clients read -/

/-- A response, as `request_service` reads it. -/
def ResponseModule.reads (response : ResponseModule) : Verdict (Option Int32) :=
  match response.serviceStatus with
  | .serviceAvailable => .decided response.result
  | .serviceNotReliable => .refused
  | .serviceNotAvailable => .unavailable

/-- What a client reads in a message of the broker. -/
def Output.reads? (c : ClientId) : Output → Option (Verdict (Option Int32))
  | .router client response => if client = c then some response.reads else none
  | .dealer _ _ _ => none
  | .reg _ => none

def tells (sent : List Output) (c : ClientId) : List (Verdict (Option Int32)) :=
  sent.filterMap (Output.reads? c)

/-- What the desk tells a client, in the same terms. -/
noncomputable def announces (n : ℕ) (d : ClientDesk) (a : ClientAction) (c : ClientId) :
    List (Verdict (Option Int32)) :=
  ((d.told n a c).map (Verdict.map some)).toList

theorem tells_of_quiet (h : ∀ c response, Output.router c response ∉ sent) : tells sent c = [] := by
  refine List.filterMap_eq_nil_iff.mpr fun output houtput => ?_
  cases output with
  | router client response => exact absurd houtput (h client response)
  | dealer index envelope sm => rfl
  | reg port => rfl

theorem tells_singleton_self (response : ResponseModule) :
    tells [.router c response] c = [response.reads] := by
  simp [tells, Output.reads?]

theorem tells_singleton_of_ne {client : ClientId} (hne : c ≠ client) (response : ResponseModule) :
    tells [.router client response] c = [] := by
  simp [tells, Output.reads?, hne.symm]

theorem announces_of_none {n : ℕ} (h : d.told n a c = none) : announces n d a c = [] := by
  rw [announces, h]
  rfl

theorem announces_of_some {n : ℕ} {verdict : Verdict Int32} (h : d.told n a c = some verdict) :
    announces n d a c = [verdict.map some] := by
  rw [announces, h]
  rfl

/-! ## Records are questions -/

/-- The question behind a record. -/
def RequestRecord.question (service : ServiceType) (record : RequestRecord) :
    Question ServiceType Int32 :=
  ⟨service, record.timeout.nanoseconds, record.results⟩

/-- The records of the broker are the questions at the desk. -/
structure Represents (b : Broker nmr) (d : ClientDesk) : Prop where
  offered : ∀ service, service ∈ d.offered ↔ service ∈ b.availableServices
  books : ∀ c service, (ofClient c (b.db.pending service)).map (·.question service) =
    ((d.opened c).filter fun q => q.topic = service).toList
  normalized : ∀ service, ∀ record ∈ b.db.pending service, record.timeout.Normalized

theorem represents_init (portRouter portReg : UInt16) :
    Represents (Broker.init portRouter portReg : Broker nmr) Desk.empty where
  offered _ := iff_of_false (Set.notMem_empty _) List.not_mem_nil
  books _ _ := rfl
  normalized _ _ hmem := absurd hmem List.not_mem_nil

theorem Represents.congr (h : Represents b d)
    (hoffered : ∀ service, service ∈ d'.offered ↔ service ∈ b'.availableServices)
    (hopened : ∀ c, d'.opened c = d.opened c) (hsame : SamePending b.db b'.db) :
    Represents b' d' where
  offered := hoffered
  books c service := by rw [hsame service, hopened c, h.books c service]
  normalized service := by
    rw [hsame service]
    exact h.normalized service

/-- A client's record is its question. -/
theorem Represents.opened_of_record (h : Represents b d) {record : RequestRecord}
    (hrecord : ofClient c (b.db.pending service) = [record]) :
    d.opened c = some (record.question service) := by
  have hbooks := h.books c service
  rw [hrecord] at hbooks
  have hfilter : (d.opened c).filter (fun q => q.topic = service) =
      some (record.question service) :=
    Option.toList_eq_singleton_iff.mp hbooks.symm
  exact (Option.filter_eq_some_iff.mp hfilter).1

/-- A client without a record has no question about this service. -/
theorem Represents.topic_ne_of_nil (h : Represents b d)
    (hnil : ofClient c (b.db.pending service) = []) (q : Question ServiceType Int32)
    (hq : d.opened c = some q) : q.topic ≠ service := by
  intro htopic
  have hbooks := h.books c service
  rw [hnil, hq, Option.filter_some, if_pos (decide_eq_true htopic)] at hbooks
  cases hbooks

/-- A client's question is its record. -/
theorem Represents.record_of_opened (h : Represents b d) {q : Question ServiceType Int32}
    (hq : d.opened c = some q) :
    ∃ record, ofClient c (b.db.pending q.topic) = [record] ∧ record.question q.topic = q := by
  have hbooks := h.books c q.topic
  rw [hq, Option.filter_some, if_pos (decide_eq_true rfl), Option.toList_some] at hbooks
  obtain ⟨record, hrecord, hquestion⟩ := List.map_eq_singleton_iff.mp hbooks
  exact ⟨record, hrecord, hquestion⟩

theorem Represents.nil_of_topic_ne (h : Represents b d)
    (hne : ∀ q, d.opened c = some q → q.topic ≠ service) :
    ofClient c (b.db.pending service) = [] := by
  have hbooks := h.books c service
  have hfilter : (d.opened c).filter (fun q => q.topic = service) = none :=
    Option.filter_eq_none_iff.mpr fun q hq => by simpa using hne q hq
  rw [hfilter, Option.toList_none] at hbooks
  exact List.map_eq_nil_iff.mp hbooks

/-- A client asks about one service at a time. -/
theorem Represents.nil_of_opened (h : Represents b d) {q : Question ServiceType Int32}
    (hq : d.opened c = some q) (hne : service ≠ q.topic) :
    ofClient c (b.db.pending service) = [] := by
  apply h.nil_of_topic_ne
  intro q' hq'
  obtain rfl : q = q' := Option.some.inj (hq.symm.trans hq')
  exact hne.symm

theorem Represents.nil_of_opened_none (h : Represents b d) (hc : d.opened c = none)
    (service : ServiceType) : ofClient c (b.db.pending service) = [] :=
  h.nil_of_topic_ne fun q hq => by rw [hc] at hq; cases hq

theorem mem_of_ofClient_eq {records : List RequestRecord} {record : RequestRecord}
    (h : ofClient c records = [record]) : record ∈ records := by
  have hmem : record ∈ ofClient c records := by
    rw [h]
    exact List.mem_singleton_self _
  exact (mem_ofClient.mp hmem).1

theorem Represents.opened_eq_none (h : Represents b d)
    (hnil : ∀ service, ofClient c (b.db.pending service) = []) : d.opened c = none := by
  rw [Option.eq_none_iff_forall_ne_some]
  intro q hq
  exact h.topic_ne_of_nil (hnil q.topic) q hq rfl

/-! ## The handlers -/

namespace Broker

/-- What a call of a handler is at the desk. -/
def view (b : Broker nmr) : Event → ClientAction
  | .registration rm _ => if b.Completes rm then .offer rm.service else .idle
  | .request c request now _ => .ask c request.service now.nanoseconds
  | .response _ reply c =>
      if reply.heartbeat || reply.duplicated then .idle
      else .vote c reply.service reply.result
  | .heartbeat _ _ _ => .idle
  | .sweep now => .tick now.nanoseconds

/-- The handler tells the clients what the desk tells them, and leaves the records of the desk's
questions. -/
structure Refines (b' : Broker nmr) (sent : List Output) (d : ClientDesk) (a : ClientAction) :
    Prop where
  tells_eq : ∀ c, tells sent c = announces nmr.toNat d a c
  represents : Represents b' (d.step nmr.toNat patience a)

/-- A handler that writes to no client and touches no record. -/
theorem refines_of_quiet (h : Represents b d)
    (hquiet : ∀ c response, Output.router c response ∉ sent)
    (hsame : SamePending b.db b'.db) (htold : ∀ c, d.told nmr.toNat a c = none)
    (htaken : ∀ c, d.taken patience a c = d.opened c)
    (hoffered : ∀ service, service ∈ d.offeredAfter a ↔ service ∈ b'.availableServices) :
    Refines b' sent d a where
  tells_eq c := by rw [tells_of_quiet hquiet, announces_of_none (htold c)]
  represents := h.congr hoffered
    (fun c => by rw [Desk.opened_step_of_none (htold c), htaken c]) hsame

theorem refines_registration (h : Represents b d) {rm : RegistrationModule} {now : Timespec}
    (hb' : (b.getRegistration rm now).result = .ok b') :
    Refines b' (b.getRegistration rm now).sent d (b.view (.registration rm now)) := by
  have hquiet : ∀ c response, Output.router c response ∉ (b.getRegistration rm now).sent := by
    intro c response hmem
    cases mem_getRegistration_sent hmem
  have hsame := samePending_getRegistration hb'
  rw [view]
  by_cases hcompletes : b.Completes rm
  · rw [if_pos hcompletes]
    refine refines_of_quiet h hquiet hsame (fun _ => rfl) (fun _ => rfl) fun service => ?_
    rw [getRegistration_ok hb', if_pos hcompletes]
    show service = rm.service ∨ service ∈ d.offered ↔ service ∈ b.availableServices ++ [rm.service]
    rw [h.offered service, List.mem_append, List.mem_singleton, or_comm]
  · rw [if_neg hcompletes]
    refine refines_of_quiet h hquiet hsame (fun _ => rfl) (fun _ => rfl) fun service => ?_
    rw [getRegistration_ok hb', if_neg hcompletes]
    exact h.offered service

theorem refines_heartbeat (h : Represents b d) {i : ℕ} {now later : Timespec}
    (hb' : (b.heartbeat i now later).result = .ok b') :
    Refines b' (b.heartbeat i now later).sent d (b.view (.heartbeat i now later)) := by
  refine refines_of_quiet h ?_ (samePending_heartbeat hb') (fun _ => rfl) (fun _ => rfl)
    fun service => ?_
  · intro c response hmem
    obtain ⟨seqId, heq⟩ := mem_heartbeat_sent hmem
    cases heq
  · by_cases hdue : b.Due i now
    · obtain ⟨_, _, -, -, rfl, -⟩ := heartbeat_ok hdue hb'
      exact h.offered service
    · rw [heartbeat_of_not_due hdue] at hb'
      rw [← Except.ok.inj hb']
      exact h.offered service

/-! ### A request -/

/-- A service that is not known is not offered. -/
theorem refines_unavailable (h : Represents b d) (htabled : b.Tabled) {request : RequestModule}
    (hnone : b.db.servicesDb request.service = none)
    (hidle : ∀ service, ofClient c (b.db.pending service) = []) (now : ℤ) :
    Refines b [.router c ⟨.serviceNotAvailable, none⟩] d (.ask c request.service now) := by
  have hoffered : request.service ∉ d.offered := by
    rw [h.offered]
    exact fun hmem => htabled.registered _ hmem hnone
  have hself : d.told nmr.toNat (.ask c request.service now) c = some .unavailable :=
    if_pos ⟨rfl, hoffered⟩
  have hother : ∀ c', c' ≠ c → d.told nmr.toNat (.ask c request.service now) c' = none :=
    fun c' hne => if_neg fun hask => hne hask.1
  constructor
  · intro c'
    by_cases hc : c' = c
    · rw [hc, tells_singleton_self, announces_of_some hself]
      rfl
    · rw [tells_singleton_of_ne hc, announces_of_none (hother c' hc)]
  · refine h.congr h.offered ?_ fun _ => rfl
    intro c'
    by_cases hc : c' = c
    · rw [hc, Desk.opened_step_of_some hself, h.opened_eq_none hidle]
    · rw [Desk.opened_step_of_none (hother c' hc)]
      exact if_neg fun hask => hc hask.1

/-- A request that is filed is a question. -/
theorem refines_filed (h : Represents b d) {request : RequestModule} {now later : Timespec}
    {record : ServiceRecord nmr} (htabled : b.Tabled)
    (hrecord : b.db.servicesDb request.service = some record)
    (hidle : ∀ service, ofClient c (b.db.pending service) = []) (hnow : now.Normalized)
    (hb' : (getRequest everyone b c request now later).result = .ok b') :
    Refines b' (getRequest everyone b c request now later).sent d
      (.ask c request.service now.nanoseconds) := by
  have havailable := available_of_getRequest htabled hrecord hb'
  have hoffered : request.service ∈ d.offered := (h.offered _).mpr havailable
  have hexact : ExactDeadline now requestTimeout := (exactDeadline_broker hnow).2
  have htold : ∀ c', d.told nmr.toNat (.ask c request.service now.nanoseconds) c' = none :=
    fun c' => if_neg fun hask => hask.2 hoffered
  have hquiet : ∀ c' response, Output.router c' response ∉
      (getRequest everyone b c request now later).sent := by
    intro c' response hmem
    cases mem_getRequest_sent hrecord hmem
  constructor
  · intro c'
    rw [tells_of_quiet hquiet, announces_of_none (htold c')]
  obtain ⟨-, -, -, rfl⟩ := getRequest_ok hrecord hb'
  have hself : (filed b.db record c request.service now).pending request.service =
      b.db.pending request.service ++ [⟨c, [], timeAddMs now requestTimeout⟩] := by
    rw [ServiceDatabase.pending_of_some hrecord]
    exact ServiceDatabase.pending_insert_self ..
  have hother : ∀ service, service ≠ request.service →
      (filed b.db record c request.service now).pending service = b.db.pending service :=
    fun service hne => (ServiceDatabase.pending_insert_of_ne _ hne _).trans
      (ServiceDatabase.pending_insert_of_ne _ hne _)
  refine ⟨h.offered, ?_, ?_⟩
  · intro c' service
    show (ofClient c' ((filed b.db record c request.service now).pending service)).map _ = _
    rw [Desk.opened_step_of_none (htold c'), Desk.taken]
    by_cases hc : c' = c
    · subst hc
      rw [if_pos ⟨rfl, hoffered⟩, Option.filter_some]
      by_cases hservice : service = request.service
      · subst hservice
        rw [hself, ofClient_append, hidle, if_pos (decide_eq_true rfl), List.nil_append,
          ofClient_cons, if_pos rfl, List.map_cons, Option.toList_some]
        show [Question.mk request.service (timeAddMs now requestTimeout).nanoseconds []] = _
        rw [hexact.instant]
        rfl
      · rw [hother service hservice, hidle, if_neg (by simpa using Ne.symm hservice)]
        rfl
    · rw [if_neg fun hask => hc hask.1, ← h.books c' service]
      by_cases hservice : service = request.service
      · subst hservice
        rw [hself, ofClient_append, ofClient_cons, if_neg (Ne.symm hc)]
        simp [ofClient]
      · rw [hother service hservice]
  · intro service pending hmem
    change pending ∈ (filed b.db record c request.service now).pending service at hmem
    by_cases hservice : service = request.service
    · rw [hservice, hself, List.mem_append, List.mem_singleton] at hmem
      rcases hmem with hmem | rfl
      · exact h.normalized _ pending hmem
      · exact hexact.normalized
    · rw [hother service hservice] at hmem
      exact h.normalized service pending hmem

theorem refines_request (h : Represents b d) (htabled : b.Tabled)
    (hidle : ∀ service, ofClient c (b.db.pending service) = []) {request : RequestModule}
    {now later : Timespec} (hnow : now.Normalized)
    (hb' : (getRequest everyone b c request now later).result = .ok b') :
    Refines b' (getRequest everyone b c request now later).sent d
      (b.view (.request c request now later)) := by
  cases hrecord : b.db.servicesDb request.service with
  | none =>
      rw [getRequest_of_none hrecord] at hb' ⊢
      obtain rfl := Except.ok.inj hb'
      exact refines_unavailable h htabled hrecord hidle _
  | some record => exact refines_filed h htabled hrecord hidle hnow hb'

/-! ### A reply -/

/-- The records after an arrival, where they are not those of the pair it is for. -/
theorem normalized_of_arrives {a : Arrival} (hb' : Arrives b a b' sent)
    (h : ∀ service, ∀ record ∈ b.db.pending service, record.timeout.Normalized) :
    ∀ service, ∀ record ∈ b'.db.pending service, record.timeout.Normalized := by
  intro service record hmem
  have hself : record ∈ ofClient record.clientId (b'.db.pending service) :=
    mem_ofClient.mpr ⟨hmem, rfl⟩
  by_cases hfor : IsFor service record.clientId a
  · obtain ⟨hplain, rfl, hclient⟩ := hfor
    rw [← hclient] at hself
    cases hb' with
    | quiet hsame hnone =>
        rw [hsame] at hmem
        exact h _ record hmem
    | filed stored pending _ hstored hpending _ heq =>
        rw [heq, ofClient_counted hstored hpending, List.mem_singleton] at hself
        rw [hself]
        have hold : pending ∈ ofClient a.clientId (b.db.pending a.reply.service) := by
          rw [hpending]
          exact List.mem_singleton_self _
        exact h _ pending (mem_ofClient.mp hold).1
    | decides stored pending _ hstored hpending _ heq =>
        rw [heq, ofClient_decided hstored hpending] at hself
        exact absurd hself List.not_mem_nil
  · rw [ofClient_of_other hb' hfor] at hself
    exact h service record (mem_ofClient.mp hself).1

/-- The desk's verdict is the broker's. -/
theorem desk_verdict {values : List Int32} (hlength : values.length ≤ nmr.toNat)
    (hdecided : ¬ Undecided nmr values) :
    ∃ v, Desk.verdict nmr.toNat values = some v ∧ (verdict nmr values).reads = v.map some := by
  by_cases hwinner : ∃ v, Wins (nmr.toNat / 2) v values
  · obtain ⟨v, hv⟩ := hwinner
    refine ⟨.decided v, Desk.verdict_of_wins hlength hv, ?_⟩
    rw [verdict_of_wins hlength hv]
    rfl
  · have hnone := not_exists.mp hwinner
    have hfull : values.length = nmr.toNat := by
      by_contra hne
      exact hdecided ⟨by omega, hnone⟩
    refine ⟨.refused, Desk.verdict_of_full hfull hnone, ?_⟩
    rw [verdict_of_no_winner hnone]
    rfl

/-- The records of the other pairs are where they were. -/
theorem books_of_other (h : Represents b d) {a : Arrival} (hb' : Arrives b a b' sent)
    (hfor : ¬ IsFor service c a) :
    (ofClient c (b'.db.pending service)).map (·.question service) =
      ((d.opened c).filter fun q => q.topic = service).toList := by
  rw [ofClient_of_other hb' hfor, h.books c service]

/-- A vote leaves the books in order where the voter's record is what the desk keeps of the
question. -/
theorem books_vote (h : Represents b d) {a : Arrival} (hb' : Arrives b a b' sent)
    {q : Question ServiceType Int32} {kept : Option (Question ServiceType Int32)}
    (hopened : d.opened a.clientId = some q) (htopic : q.topic = a.reply.service)
    (hkept : ∀ q' ∈ kept, q'.topic = a.reply.service)
    (hstep : (d.step nmr.toNat patience (.vote a.clientId a.reply.service a.reply.result)).opened
      a.clientId = kept)
    (hself : (ofClient a.clientId (b'.db.pending a.reply.service)).map
      (·.question a.reply.service) = kept.toList) (c : ClientId) (service : ServiceType) :
    (ofClient c (b'.db.pending service)).map (·.question service) =
      (((d.step nmr.toNat patience (.vote a.clientId a.reply.service a.reply.result)).opened
        c).filter fun q => q.topic = service).toList := by
  by_cases hc : c = a.clientId
  · subst hc
    rw [hstep]
    by_cases hservice : service = a.reply.service
    · subst hservice
      have hall : kept.filter (fun q => q.topic = a.reply.service) = kept := by
        cases kept with
        | none => rfl
        | some q' => rw [Option.filter_some, if_pos (decide_eq_true (hkept q' rfl))]
      rw [hself, hall]
    · have hold : (d.opened a.clientId).filter (fun q => q.topic = service) = none :=
        Option.filter_eq_none_iff.mpr fun q' hq' => by
          obtain rfl : q = q' := Option.some.inj (hopened.symm.trans hq')
          simpa [htopic] using Ne.symm hservice
      have hnew : kept.filter (fun q => q.topic = service) = none :=
        Option.filter_eq_none_iff.mpr fun q' hq' => by
          simpa [hkept q' hq'] using Ne.symm hservice
      rw [books_of_other h hb' fun hfor => hservice hfor.2.1.symm, hold, hnew]
  · rw [Desk.opened_vote_of_other hc, books_of_other h hb' fun hfor => hc hfor.2.2.symm]

/-- A vote that decides nothing is kept. -/
theorem refines_vote_filed (h : Represents b d) {a : Arrival} {record : ServiceRecord nmr}
    {pending : RequestRecord} (hb' : Arrives b a (b.counted record a.reply a.clientId) [])
    (hrecord : b.db.servicesDb a.reply.service = some record)
    (hpending : ofClient a.clientId (b.db.pending a.reply.service) = [pending])
    (hundecided : Undecided nmr (pending.results ++ [a.reply.result])) :
    Refines (b.counted record a.reply a.clientId) [] d
      (.vote a.clientId a.reply.service a.reply.result) := by
  have hopened := h.opened_of_record hpending
  have htopic : (pending.question a.reply.service).topic = a.reply.service := rfl
  have hverdict : Desk.verdict nmr.toNat (pending.results ++ [a.reply.result]) = none :=
    Desk.verdict_of_undecided hundecided.1 hundecided.2
  have htold := (Desk.told_vote hopened htopic a.reply.result).trans hverdict
  constructor
  · intro c
    by_cases hc : c = a.clientId
    · subst hc
      rw [announces_of_none htold]
      rfl
    · rw [announces_of_none (Desk.told_vote_of_other hc _)]
      rfl
  refine ⟨h.offered, ?_, normalized_of_arrives hb' h.normalized⟩
  refine books_vote h hb' hopened htopic ?_
    (Desk.opened_vote_of_undecided hopened htopic hverdict) ?_
  · intro q' hq'
    rw [← Option.some.inj hq']
    rfl
  · rw [ofClient_counted hrecord hpending]
    rfl

/-- A vote that decides closes the question. -/
theorem refines_vote_decides (h : Represents b d) (hopen : b.Open) {a : Arrival}
    {record : ServiceRecord nmr} {pending : RequestRecord}
    (hb' : Arrives b a (b.decided record a.reply a.clientId)
      [.router a.clientId (verdict nmr (pending.results ++ [a.reply.result]))])
    (hrecord : b.db.servicesDb a.reply.service = some record)
    (hpending : ofClient a.clientId (b.db.pending a.reply.service) = [pending])
    (hdecided : ¬ Undecided nmr (pending.results ++ [a.reply.result])) :
    Refines (b.decided record a.reply a.clientId)
      [.router a.clientId (verdict nmr (pending.results ++ [a.reply.result]))] d
      (.vote a.clientId a.reply.service a.reply.result) := by
  have hopened := h.opened_of_record hpending
  have htopic : (pending.question a.reply.service).topic = a.reply.service := rfl
  have hlength : (pending.results ++ [a.reply.result]).length ≤ nmr.toNat := by
    have hshort := (hopen.undecided _ pending (mem_of_ofClient_eq hpending)).1
    rw [List.length_append, List.length_singleton]
    omega
  obtain ⟨v, hv, hreads⟩ := desk_verdict hlength hdecided
  have htold := (Desk.told_vote hopened htopic a.reply.result).trans hv
  constructor
  · intro c
    by_cases hc : c = a.clientId
    · subst hc
      rw [announces_of_some htold, tells_singleton_self, hreads]
    · rw [announces_of_none (Desk.told_vote_of_other hc _), tells_singleton_of_ne hc]
  refine ⟨h.offered, ?_, normalized_of_arrives hb' h.normalized⟩
  refine books_vote h hb' hopened htopic ?_ (Desk.opened_step_of_some htold) ?_
  · intro q' hq'
    cases hq'
  · rw [ofClient_decided hrecord hpending]
    rfl

/-- **A plain reply is a vote.** -/
theorem refines_vote (h : Represents b d) (hopen : b.Open) {a : Arrival} (hplain : a.Plain)
    (hb' : Arrives b a b' sent) (havailable : b'.availableServices = b.availableServices) :
    Refines b' sent d (.vote a.clientId a.reply.service a.reply.result) := by
  cases hb' with
  | quiet hsame hnone =>
      have hunasked := h.topic_ne_of_nil (hnone hplain).1
      constructor
      · intro c
        rw [announces_of_none (Desk.told_vote_of_unasked hunasked _)]
        rfl
      · refine h.congr ?_ (fun c => Desk.opened_vote_of_unasked hunasked _) hsame
        rw [havailable]
        exact h.offered
  | filed record pending _ hrecord hpending hundecided heq =>
      subst heq
      exact refines_vote_filed h (.filed record pending hplain hrecord hpending hundecided rfl)
        hrecord hpending hundecided
  | decides record pending _ hrecord hpending hdecided heq =>
      subst heq
      exact refines_vote_decides h hopen
        (.decides record pending hplain hrecord hpending hdecided rfl) hrecord hpending hdecided

theorem refines_response (h : Represents b d) (hopen : b.Open) {index : ℕ} {reply : ServerReply}
    (hb' : (getResponse everyone b index reply c).result = .ok b') :
    Refines b' (getResponse everyone b index reply c).sent d
      (b.view (.response index reply c)) := by
  have havailable : b'.availableServices = b.availableServices := by
    rcases getResponse_writes hb' with rfl | ⟨_, _, _, -, rfl⟩ <;> rfl
  change (b.receive ⟨index, reply, c⟩).result = .ok b' at hb'
  show Refines b' (b.receive ⟨index, reply, c⟩).sent d _
  obtain ⟨t, ht, harrives, -⟩ := arrives hopen (admissible_of_ok hb')
  obtain rfl : t = b' := Except.ok.inj (ht.symm.trans hb')
  by_cases hplain : (⟨index, reply, c⟩ : Arrival).Plain
  · have hheartbeat : reply.heartbeat = false := hplain.1
    have hduplicated : reply.duplicated = false := hplain.2
    rw [view, if_neg (by simp [hheartbeat, hduplicated])]
    exact refines_vote h hopen hplain harrives havailable
  · have hquiet : (reply.heartbeat || reply.duplicated) = true := by
      rw [Bool.or_eq_true]
      by_contra hneither
      rw [not_or, Bool.not_eq_true, Bool.not_eq_true] at hneither
      exact hplain hneither
    rw [view, if_pos hquiet]
    generalize (b.receive ⟨index, reply, c⟩).sent = sent at harrives
    cases harrives with
    | quiet hsame _ =>
        refine refines_of_quiet h (fun _ _ => List.not_mem_nil) hsame (fun _ => rfl)
          (fun _ => rfl) fun service => ?_
        rw [havailable]
        exact h.offered service
    | filed _ _ hplain' _ _ _ _ => exact absurd hplain' hplain
    | decides _ _ hplain' _ _ _ _ => exact absurd hplain' hplain

/-! ### A sweep -/

/-- The answers to undecided records are refusals. -/
theorem tells_of_answers {records : List RequestRecord}
    (h : List.Forall₂ (Answers nmr) records sent)
    (hundecided : ∀ record ∈ records, Undecided nmr record.results) (c : ClientId) :
    tells sent c = (ofClient c records).map fun _ => .refused := by
  induction h with
  | nil => rfl
  | @cons record output records sent hanswers _ ih =>
      have hrest := ih fun other hmem => hundecided other (List.mem_cons_of_mem _ hmem)
      obtain ⟨response, rfl, hresponse⟩ := hanswers
      have hreads : response.reads = .refused := by
        rcases hresponse with ⟨v, hv, -⟩ | ⟨-, hstatus⟩
        · exact absurd hv ((hundecided record List.mem_cons_self).2 v)
        · rw [ResponseModule.reads, hstatus]
      rw [ofClient_cons, tells, List.filterMap_cons]
      by_cases hc : record.clientId = c
      · rw [Output.reads?, if_pos hc, if_pos hc, hreads, List.map_cons, ← hrest]
        rfl
      · rw [Output.reads?, if_neg hc, if_neg hc, ← hrest]
        rfl

/-- Only one service of the list has anything. -/
theorem flatMap_of_single {services : List ServiceType} {records : List RequestRecord}
    (hnodup : services.Nodup) (hmem : service ∈ services) {f : ServiceType → List RequestRecord}
    (hself : f service = records) (hother : ∀ other, other ≠ service → f other = []) :
    services.flatMap f = records := by
  obtain ⟨before, after, rfl⟩ := List.append_of_mem hmem
  have hnone : ∀ part : List ServiceType, service ∉ part → part.flatMap f = [] := fun part hpart =>
    List.flatMap_eq_nil_iff.mpr fun other hmem => hother other fun heq => hpart (heq ▸ hmem)
  have hapart := List.nodup_middle.mp hnodup
  rw [List.nodup_cons, List.mem_append, not_or] at hapart
  rw [List.flatMap_append, List.flatMap_cons, hself, hnone before hapart.1.1,
    hnone after hapart.1.2, List.append_nil, List.nil_append]

/-- The record is expired when the question's deadline is over. -/
theorem expired_iff_deadline {record : RequestRecord} {now : Timespec} (hnow : now.Normalized)
    (hrecord : record.timeout.Normalized) :
    record.expired now = true ↔ (record.question service).deadline < now.nanoseconds := by
  rw [RequestRecord.expired, decide_eq_true_iff, timeCmp_eq_sign hnow hrecord,
    Int.sign_eq_one_iff_pos, Int.sub_pos]
  rfl

/-- What a sweep answers and what it leaves, client by client. -/
structure SweptFor (b b' : Broker nmr) (now : Timespec) (c : ClientId) : Prop where
  expired : ofClient c (b.expiredRecords now) = b.availableServices.flatMap fun service =>
    (ofClient c (b.db.pending service)).filter (RequestRecord.expired now)
  left : ∀ service, ofClient c (b'.db.pending service) =
    (ofClient c (b.db.pending service)).filter fun record => !record.expired now

theorem sweptFor {now : Timespec}
    (hbooked : ∀ service, ∀ record ∈ b.db.pending service, service ∈ b.availableServices)
    (hpending : ∀ service, b'.db.pending service = b.pendingAfter now service) (c : ClientId) :
    SweptFor b b' now c where
  expired := by
    unfold expiredRecords ofClient
    rw [List.filter_flatMap]
    simp only [List.filter_filter, Bool.and_comm]
  left service := by
    rw [hpending, pendingAfter]
    split
    · unfold ofClient
      simp only [List.filter_filter, Bool.and_comm]
    · rename_i hservice
      have hnil : b.db.pending service = [] := List.eq_nil_iff_forall_not_mem.mpr
        fun record hmem => hservice (hbooked service record hmem)
      rw [hnil]
      rfl

/-- The record of a question is expired when the question's time is up. -/
theorem expired_of_opened (h : Represents b d) {now : Timespec} (hnow : now.Normalized)
    {q : Question ServiceType Int32} (hq : d.opened c = some q) : ∃ record,
      record ∈ b.db.pending q.topic ∧ ofClient c (b.db.pending q.topic) = [record] ∧
        (record.expired now = true ↔ q.deadline < now.nanoseconds) := by
  obtain ⟨record, hrecord, hquestion⟩ := h.record_of_opened hq
  have hmem := mem_of_ofClient_eq hrecord
  refine ⟨record, hmem, hrecord, ?_⟩
  rw [expired_iff_deadline hnow (h.normalized _ record hmem), hquestion]

theorem told_tick (d : ClientDesk) (n : ℕ) (now : ℤ) (c : ClientId) :
    d.told n (.tick now) c =
      (d.opened c).bind fun q => if q.deadline < now then some .refused else none := rfl

/-- What a sweep tells a client. -/
theorem tells_sweep (h : Represents b d) (htabled : b.Tabled) (hopen : b.Open) {now : Timespec}
    (hnow : now.Normalized) (hanswered : List.Forall₂ (Answers nmr) (b.expiredRecords now) sent)
    (hswept : SweptFor b b' now c)
    (hbooked : ∀ service, ∀ record ∈ b.db.pending service, service ∈ b.availableServices) :
    tells sent c = announces nmr.toNat d (.tick now.nanoseconds) c := by
  have hundecided : ∀ record ∈ b.expiredRecords now, Undecided nmr record.results := by
    intro record hmem
    obtain ⟨service, -, hmem⟩ := List.mem_flatMap.mp hmem
    exact hopen.undecided service record (List.mem_filter.mp hmem).1
  rw [tells_of_answers hanswered hundecided, hswept.expired]
  cases hopened : d.opened c with
  | none =>
      rw [announces_of_none (by rw [told_tick, hopened]; rfl)]
      simp [h.nil_of_opened_none hopened]
  | some q =>
      obtain ⟨record, hmem, hrecord, hexpired⟩ := expired_of_opened h hnow hopened
      rw [flatMap_of_single htabled.nodup (hbooked _ record hmem) rfl
        fun service hne => by rw [h.nil_of_opened hopened hne, List.filter_nil], hrecord]
      by_cases hdue : q.deadline < now.nanoseconds
      · rw [announces_of_some (by rw [told_tick, hopened, Option.bind_some, if_pos hdue]),
          List.filter_cons_of_pos (hexpired.mpr hdue)]
        rfl
      · rw [announces_of_none (by rw [told_tick, hopened, Option.bind_some, if_neg hdue]),
          List.filter_cons_of_neg fun hyes => hdue (hexpired.mp hyes)]
        rfl

/-- What a sweep leaves of the records of a client. -/
theorem books_sweep (h : Represents b d) {now : Timespec} (hnow : now.Normalized)
    (hswept : SweptFor b b' now c) (service : ServiceType) :
    (ofClient c (b'.db.pending service)).map (·.question service) =
      (((d.step nmr.toNat patience (.tick now.nanoseconds)).opened c).filter fun q =>
        q.topic = service).toList := by
  rw [hswept.left]
  cases hopened : d.opened c with
  | none =>
      rw [Desk.opened_step_of_none (by rw [told_tick, hopened]; rfl), Desk.taken, hopened,
        h.nil_of_opened_none hopened]
      rfl
  | some q =>
      obtain ⟨record, -, hrecord, hexpired⟩ := expired_of_opened h hnow hopened
      by_cases hdue : q.deadline < now.nanoseconds
      · rw [Desk.opened_step_of_some (by rw [told_tick, hopened, Option.bind_some, if_pos hdue])]
        by_cases hservice : service = q.topic
        · rw [hservice, hrecord, List.filter_cons_of_neg (by simp [hexpired.mpr hdue])]
          rfl
        · rw [h.nil_of_opened hopened hservice]
          rfl
      · rw [Desk.opened_step_of_none (by rw [told_tick, hopened, Option.bind_some, if_neg hdue]),
          Desk.taken, ← h.books c service]
        congr 1
        apply List.filter_eq_self.mpr
        intro other hmem
        by_cases hservice : service = q.topic
        · rw [hservice, hrecord, List.mem_singleton] at hmem
          rw [hmem, Bool.not_eq_true', ← Bool.not_eq_true]
          exact fun hyes => hdue (hexpired.mp hyes)
        · rw [h.nil_of_opened hopened hservice] at hmem
          cases hmem

/-- **A sweep is a tick of the clock.** -/
theorem refines_sweep (h : Represents b d) (htabled : b.Tabled) (hopen : b.Open) {now : Timespec}
    (hnow : now.Normalized) (hsweeps : b.Sweeps now)
    (hbooked : ∀ service, ∀ record ∈ b.db.pending service, service ∈ b.availableServices)
    (hb' : (checkPendingRequests everyone b now).result = .ok b') :
    Refines b' (checkPendingRequests everyone b now).sent d (b.view (.sweep now)) := by
  obtain ⟨swept, hswept, hpending⟩ := hsweeps.removed
  obtain rfl : swept = b' := Except.ok.inj (hswept.symm.trans hb')
  have hclients := sweptFor hbooked hpending
  have htells := fun c =>
    tells_sweep h htabled hopen hnow hsweeps.answered (hclients c) hbooked
  refine ⟨htells, ?_, ?_, ?_⟩
  · obtain ⟨db, -, rfl⟩ := checkPendingRequests_ok hb'
    exact h.offered
  · exact fun c service => books_sweep h hnow (hclients c) service
  · intro service record hmem
    rw [hpending, pendingAfter] at hmem
    split at hmem
    · exact h.normalized service record (List.mem_filter.mp hmem).1
    · exact h.normalized service record hmem

end Broker

/-! ## Runs -/

/-- The clock readings that set or meet a deadline of a request. -/
def Event.Clocked : Event → Prop
  | .request _ _ now _ => now.Normalized
  | .sweep now => now.Normalized
  | _ => True

namespace Session

variable {s s' : Session nmr} {event : Event} {events past : List Event}

/-- What a call is at the desk. -/
def view (s : Session nmr) (event : Event) : ClientAction :=
  s.broker.elim .idle fun b => b.view event

/-- What the clients are told in a call. -/
def announced (s : Session nmr) (event : Event) : ClientId → List (Verdict (Option Int32)) :=
  tells (s.broker.elim [] fun b => (b.handle Broker.everyone event).sent)

/-- The handler returns. -/
def Returns (s : Session nmr) (event : Event) : Prop :=
  ∀ s', s.step event = some s' → s'.broker.isSome

/-- While there is a broker, every handler has returned. -/
theorem along_returns (hrun : Machine.run step s events = some s') (halive : s'.broker.isSome) :
    Machine.Along step Returns s events := by
  induction events generalizing s with
  | nil => trivial
  | cons event events ih =>
      obtain ⟨t, ht, hrun⟩ := Machine.run_cons_eq_some.mp hrun
      refine ⟨?_, fun u hu => ih (Option.some.inj (ht.symm.trans hu) ▸ hrun)⟩
      intro u hu
      obtain rfl : t = u := Option.some.inj (ht.symm.trans hu)
      cases events with
      | nil =>
          obtain rfl := Option.some.inj hrun
          exact halive
      | cons next events =>
          obtain ⟨_, hnext, -⟩ := Machine.run_cons_eq_some.mp hrun
          obtain ⟨b, hb, -⟩ := step_eq_some hnext
          rw [hb]
          rfl

/-- Records are filed under available services only. -/
theorem Answering.booked (h : s.Answering past) (hb : s.broker = some b) {record : RequestRecord}
    (hmem : record ∈ b.db.pending service) : service ∈ b.availableServices := by
  obtain ⟨n, ask, ⟨-, hwaiting⟩, hask, rfl, -⟩ := (h.orderly.2 b hb).owner service record hmem
  have hrecorded := h.onRecord b hb
  have hlt := (List.getElem?_eq_some_iff.mp hask).1
  rw [← hrecorded.length_eq] at hlt
  exact (hrecorded.record n ask _ hask hwaiting (List.getElem?_eq_getElem hlt)).1

/-- **One call** of a session with aligned sweeps is one action of the desk. -/
theorem simulates_desk (hnmr : 1 ≤ nmr.toNat) :
    Machine.Simulates (step : Session nmr → Event → Option (Session nmr)) announced
      (fun s event => s.SweepAligned event ∧ event.Clocked ∧ s.Returns event)
      (Desk.step nmr.toNat patience) (announces nmr.toNat) view
      (fun s d => (∃ past, s.Answering past) ∧ ∀ b ∈ s.broker, Represents b d) := by
  rintro s d event s' ⟨⟨past, h⟩, hrepresents⟩ ⟨haligned, hclock, hreturns⟩ hstep
  have hnext := h.step haligned hstep
  have halive := hreturns s' hstep
  obtain ⟨b, hb, hadmits, rfl⟩ := step_eq_some hstep
  obtain ⟨b', hb'⟩ := Option.isSome_iff_exists.mp halive
  have hresult : (b.handle Broker.everyone event).result = .ok b' :=
    Outcome.toOption_eq_some.mp hb'
  have hopen := h.undecided hnmr b hb
  have hrefines : Broker.Refines b' (b.handle Broker.everyone event).sent d (b.view event) := by
    cases event with
    | registration rm now => exact Broker.refines_registration (hrepresents b hb) hresult
    | request c request now later =>
        exact Broker.refines_request (hrepresents b hb) (h.tabled b hb)
          ((h.orderly.2 b hb).ofClient_nil (Ledger.idle_iff.mp hadmits)) hclock hresult
    | response index reply c => exact Broker.refines_response (hrepresents b hb) hopen hresult
    | heartbeat i now later => exact Broker.refines_heartbeat (hrepresents b hb) hresult
    | sweep now =>
        exact Broker.refines_sweep (hrepresents b hb) (h.tabled b hb) hopen hclock
          (h.sweeps hb haligned) (fun _ _ hmem => h.booked hb hmem) hresult
  have hview : s.view event = b.view event := by rw [view, hb, Option.elim_some]
  rw [hview]
  refine ⟨?_, ⟨_, hnext⟩, ?_⟩
  · funext c
    rw [announced, hb, Option.elim_some]
    exact hrefines.tells_eq c
  · intro t ht
    obtain rfl : b' = t := Option.some.inj (hb'.symm.trans ht)
    exact hrefines.represents

/-- **The broker is a desk.**  In every run with aligned sweeps whose handlers return, the clients
are told, call by call, what the desk tells them that offers a service once it is complete and
hears the plain replies as votes; and the records that are left are the questions that are left. -/
theorem refines_desk (hnmr : 1 ≤ nmr.toNat) (portRouter portReg : UInt16) {events : List Event}
    (hclock : ∀ event ∈ events, event.Clocked)
    (haligned : Machine.Along step SweepAligned (init portRouter portReg : Session nmr) events)
    {s : Session nmr} (hrun : Machine.run step (init portRouter portReg) events = some s)
    {b : Broker nmr} (hb : s.broker = some b) :
    Machine.trace step announced (init portRouter portReg : Session nmr) events =
        Machine.traceOf (Desk.step nmr.toNat patience) (announces nmr.toNat) Desk.empty
          (Machine.trace step view (init portRouter portReg : Session nmr) events) ∧
      Represents b ((Machine.trace step view (init portRouter portReg : Session nmr) events).foldl
        (Desk.step nmr.toNat patience) Desk.empty) := by
  have halive : s.broker.isSome := by
    rw [hb]
    rfl
  have halong := haligned.and
    ((Machine.along_of_forall_mem hclock _).and (along_returns hrun halive))
  have hinit : ∀ b ∈ (init portRouter portReg : Session nmr).broker, Represents b Desk.empty := by
    intro b hb
    obtain rfl := Option.some.inj (Option.mem_def.mp hb)
    exact represents_init portRouter portReg
  obtain ⟨htrace, -, hfinal⟩ :=
    (simulates_desk hnmr).run ⟨⟨[], answering_init portRouter portReg⟩, hinit⟩ halong hrun
  exact ⟨htrace, hfinal b hb⟩

/-- A service of three copies answers client 7 by majority and client 8 not at all, and a service
nobody has registered is asked for. -/
def deskRun : List Event :=
  List.replicate 3 (.registration ⟨"pippo", 0⟩ ⟨0, 0⟩) ++
    [.request 7 ⟨0, Vector.replicate paramSize 0⟩ ⟨0, 0⟩ ⟨0, 0⟩,
      .response 0 ⟨false, false, 9, 0, 0⟩ 7, .response 0 ⟨false, false, 5, 0, 1⟩ 7,
      .response 0 ⟨false, false, 9, 0, 2⟩ 7,
      .request 8 ⟨0, Vector.replicate paramSize 0⟩ ⟨1, 0⟩ ⟨1, 0⟩, .sweep ⟨5, 0⟩, .sweep ⟨7, 0⟩,
      .request 7 ⟨1, Vector.replicate paramSize 0⟩ ⟨7, 0⟩ ⟨7, 0⟩]

theorem refines_desk_deskRun :
    ((Machine.traceOf (Desk.step 3 patience) (announces 3) Desk.empty
      (Machine.trace step view (init 5559 5555 : Session 3) deskRun)).map
        fun told => (told 7, told 8)) =
      [([], []), ([], []), ([], []), ([], []), ([], []), ([], []), ([.decided (some 9)], []),
        ([], []), ([], []), ([], [.refused]), ([.unavailable], [])] := by
  have hrun : ((Machine.run step (init 5559 5555 : Session 3) deskRun).bind
      Session.broker).isSome := by decide +kernel
  obtain ⟨b, hbind⟩ := Option.isSome_iff_exists.mp hrun
  obtain ⟨s, hs, hb⟩ := Option.bind_eq_some_iff.mp hbind
  have hclock : ∀ event ∈ deskRun, event.Clocked := by
    simp [deskRun, Event.Clocked, or_imp, forall_and, normalized_of_seconds]
  have hrefines := refines_desk (by decide) 5559 5555 hclock (by decide +kernel) hs hb
  rw [← show (3 : UInt8).toNat = 3 from rfl, ← hrefines.1]
  decide +kernel

end Session

end ReliableService
