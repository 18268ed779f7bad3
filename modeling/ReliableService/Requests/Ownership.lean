import ReliableService.Model.Clients
import ReliableService.Requests.Records

/-!
# Every record belongs to a waiting client

A record holds a client identifier and no request.  `Kept` is the invariant that makes it
the record of one request all the same: its client is waiting, the request it is waiting
for went to the service the record is filed under, and nobody has two records.

The invariant is stated over two parameters, so that the same steps serve every property
of runs that is about requests:

* `fit n results` is what a record of request `n` guarantees about its results;
* `good n response` is what is promised of a response booked on request `n`.

The steps are a request that is filed (`Kept.push`), a result that is appended
(`Kept.append`) and an answer with the deletion that follows it (`Kept.answer`).
-/

namespace ReliableService

open ServiceRecord

/-! ## The ledger -/

namespace Ledger

variable {good : ℕ → ResponseModule → Prop} {l : Ledger} {c c' : ClientId} {n n' : ℕ}

/-- What holds of the clients' side of every run. -/
structure Sound (good : ℕ → ResponseModule → Prop) (l : Ledger) : Prop where
  latest_asks : ∀ c n, l.latest c = some n → ∃ ask, l.asks[n]? = some ask ∧ ask.clientId = c
  answered_lt : ∀ n ∈ l.answered, n < l.asks.length
  answered_nodup : l.answered.Nodup
  good_of_mem : ∀ entry ∈ l.responses, good entry.1 entry.2

theorem sound_init (good : ℕ → ResponseModule → Prop) : Sound good init where
  latest_asks := by simp [init]
  answered_lt := by simp [init, answered]
  answered_nodup := by simp [init, answered]
  good_of_mem := by simp [init]

theorem Sound.imp {good' : ℕ → ResponseModule → Prop} (h : Sound good l)
    (himp : ∀ n response, good n response → good' n response) : Sound good' l where
  latest_asks := h.latest_asks
  answered_lt := h.answered_lt
  answered_nodup := h.answered_nodup
  good_of_mem entry hentry := himp _ _ (h.good_of_mem entry hentry)

theorem idle_iff : l.idle c ↔ ∀ n, ¬ l.Waiting c n := by
  unfold idle Waiting
  cases h : l.latest c <;> simp

theorem Waiting.eq (h : l.Waiting c n) (h' : l.Waiting c n') : n = n' :=
  Option.some.inj (h.1.symm.trans h'.1)

/-- A request has one client. -/
theorem Sound.client_eq (hsound : Sound good l) (h : l.latest c = some n)
    (h' : l.latest c' = some n) : c = c' := by
  obtain ⟨ask, hask, hc⟩ := hsound.latest_asks c n h
  obtain ⟨ask', hask', hc'⟩ := hsound.latest_asks c' n h'
  rw [hask, Option.some.injEq] at hask'
  exact hc.symm.trans (hask' ▸ hc')

theorem Sound.lt_length (hsound : Sound good l) (h : l.latest c = some n) : n < l.asks.length := by
  obtain ⟨ask, hask, -⟩ := hsound.latest_asks c n h
  exact (List.getElem?_eq_some_iff.mp hask).1

@[simp] theorem observeAll_append (l : Ledger) (sent sent' : List Output) :
    l.observeAll (sent ++ sent') = (l.observeAll sent).observeAll sent' :=
  List.foldl_append ..

/-- Messages to copies are nothing to the clients. -/
theorem observeAll_eq_self {sent : List Output}
    (h : ∀ c response, Output.router c response ∉ sent) : l.observeAll sent = l := by
  induction sent with
  | nil => rfl
  | cons output sent ih =>
      have hrest := ih fun c response hmem => h c response (List.mem_cons_of_mem _ hmem)
      cases output with
      | router c response => exact absurd List.mem_cons_self (h c response)
      | dealer index envelope sm => exact hrest
      | reg port => exact hrest

/-! ### A request -/

theorem waiting_ask_self (hsound : Sound good l) (c : ClientId) (request : RequestModule) :
    (l.ask c request).Waiting c l.asks.length := by
  refine ⟨by simp [ask], ?_⟩
  intro hmem
  exact absurd (hsound.answered_lt _ hmem) (lt_irrefl _)

theorem waiting_ask_of_ne (hne : c' ≠ c) (request : RequestModule) :
    (l.ask c request).Waiting c' n ↔ l.Waiting c' n := by
  simp [Waiting, ask, hne, answered]

theorem Sound.ask (hsound : Sound good l) (c : ClientId) (request : RequestModule) :
    Sound good (l.ask c request) where
  latest_asks := by
    intro c' n hlatest
    by_cases hc : c' = c
    · subst hc
      simp only [Ledger.ask, if_true, Option.some.injEq] at hlatest
      exact ⟨⟨c', request⟩, by simp [Ledger.ask, ← hlatest], rfl⟩
    · simp only [Ledger.ask, if_neg hc] at hlatest
      obtain ⟨ask, hask, hclient⟩ := hsound.latest_asks c' n hlatest
      have hlt := (List.getElem?_eq_some_iff.mp hask).1
      exact ⟨ask, by rw [Ledger.ask, List.getElem?_append_left hlt, hask], hclient⟩
  answered_lt := by
    intro n hmem
    have := hsound.answered_lt n hmem
    simp only [Ledger.ask, List.length_append, List.length_singleton]
    omega
  answered_nodup := hsound.answered_nodup
  good_of_mem := hsound.good_of_mem

theorem asks_ask_of_lt (hlt : n < l.asks.length) (request : RequestModule) :
    (l.ask c request).asks[n]? = l.asks[n]? := by
  rw [Ledger.ask, List.getElem?_append_left hlt]

@[simp] theorem asks_ask_length (request : RequestModule) :
    (l.ask c request).asks[l.asks.length]? = some ⟨c, request⟩ := by
  simp [Ledger.ask]

/-! ### A response -/

@[simp] theorem asks_respond (response : ResponseModule) :
    (l.respond c response).asks = l.asks := by
  unfold respond
  split <;> rfl

theorem asks_observeAll (l : Ledger) (sent : List Output) : (l.observeAll sent).asks = l.asks := by
  induction sent generalizing l with
  | nil => rfl
  | cons output sent ih =>
      rw [show l.observeAll (output :: sent) = (l.observe output).observeAll sent from rfl, ih]
      cases output with
      | router c response => exact asks_respond response
      | dealer index envelope sm => rfl
      | reg port => rfl

@[simp] theorem latest_respond (response : ResponseModule) :
    (l.respond c response).latest = l.latest := by
  unfold respond
  split <;> rfl

theorem answered_respond (h : l.latest c = some n) (response : ResponseModule) :
    (l.respond c response).answered = l.answered ++ [n] := by
  simp [respond, h, answered]

theorem Sound.respond (hsound : Sound good l) (hwaiting : l.Waiting c n)
    {response : ResponseModule} (hgood : good n response) : Sound good (l.respond c response) where
  latest_asks := by
    rw [latest_respond, asks_respond]
    exact hsound.latest_asks
  answered_lt := by
    rw [answered_respond hwaiting.1, asks_respond]
    intro m hm
    rcases List.mem_append.mp hm with hm | hm
    · exact hsound.answered_lt m hm
    · rw [List.mem_singleton.mp hm]
      exact hsound.lt_length hwaiting.1
  answered_nodup := by
    rw [answered_respond hwaiting.1, List.nodup_append]
    exact ⟨hsound.answered_nodup, List.nodup_singleton n, fun a ha b hb => by
      rw [List.mem_singleton.mp hb]
      exact fun heq => hwaiting.2 (heq ▸ ha)⟩
  good_of_mem := by
    intro entry hentry
    simp only [Ledger.respond, hwaiting.1] at hentry
    rcases List.mem_append.mp hentry with hentry | hentry
    · exact hsound.good_of_mem entry hentry
    · rw [List.mem_singleton.mp hentry]
      exact hgood

theorem Sound.waiting_respond_of_ne (hsound : Sound good l) (hne : c' ≠ c)
    (response : ResponseModule) : (l.respond c response).Waiting c' n ↔ l.Waiting c' n := by
  unfold Waiting
  rw [latest_respond]
  apply and_congr_right
  intro hlatest
  cases hc : l.latest c with
  | none => simp [Ledger.respond, hc]
  | some m =>
      rw [answered_respond hc, List.mem_append, List.mem_singleton, not_or]
      refine and_iff_left fun heq => hne (hsound.client_eq hlatest (heq ▸ hc))

end Ledger

/-! ## The records -/

variable {nmr : UInt8} {fit fit' : ℕ → List Int32 → Prop} {good : ℕ → ResponseModule → Prop}
  {l : Ledger} {db : ServiceDatabase nmr} {service : ServiceType} {record : ServiceRecord nmr}
  {c : ClientId}

/-- Every record is the only one of a waiting client, filed under the service of the
request the client waits for. -/
structure Kept (fit : ℕ → List Int32 → Prop) (l : Ledger) (db : ServiceDatabase nmr) : Prop where
  owner : ∀ service, ∀ record ∈ db.pending service, ∃ n ask, l.Waiting record.clientId n ∧
    l.asks[n]? = some ask ∧ ask.request.service = service ∧ fit n record.results
  single : ∀ service c, (ofClient c (db.pending service)).length ≤ 1

theorem kept_init (fit : ℕ → List Int32 → Prop) (l : Ledger) :
    Kept fit l (ServiceDatabase.init : ServiceDatabase nmr) where
  owner := by simp [ServiceDatabase.pending, ServiceDatabase.init]
  single := by simp [ServiceDatabase.pending, ServiceDatabase.init]

/-- Two databases with the same pending requests. -/
def SamePending (db db' : ServiceDatabase nmr) : Prop :=
  ∀ service, db'.pending service = db.pending service

theorem Kept.congr (h : Kept fit l db) {db' : ServiceDatabase nmr} (hsame : SamePending db db') :
    Kept fit l db' where
  owner service := by
    rw [hsame service]
    exact h.owner service
  single service := by
    rw [hsame service]
    exact h.single service

theorem Kept.imp (h : Kept fit l db) (himp : ∀ n results, fit n results → fit' n results) :
    Kept fit' l db where
  owner service record hmem := by
    obtain ⟨n, ask, hwaiting, hask, hservice, hfit⟩ := h.owner service record hmem
    exact ⟨n, ask, hwaiting, hask, hservice, himp n _ hfit⟩
  single := h.single

/-- A client that is not waiting has no records. -/
theorem Kept.ofClient_nil (h : Kept fit l db) (hidle : ∀ n, ¬ l.Waiting c n)
    (service : ServiceType) : ofClient c (db.pending service) = [] := by
  apply List.eq_nil_iff_forall_not_mem.mpr
  intro record hrecord
  obtain ⟨hmem, hclient⟩ := mem_ofClient.mp hrecord
  obtain ⟨n, ask, hwaiting, -⟩ := h.owner service record hmem
  exact hidle n (hclient ▸ hwaiting)

/-- A client has records under one service only. -/
theorem Kept.service_eq (h : Kept fit l db) {service service' : ServiceType}
    {record record' : RequestRecord} (hmem : record ∈ db.pending service)
    (hmem' : record' ∈ db.pending service') (hclient : record.clientId = record'.clientId) :
    service = service' := by
  obtain ⟨n, ask, hwaiting, hask, hservice, -⟩ := h.owner service record hmem
  obtain ⟨n', ask', hwaiting', hask', hservice', -⟩ := h.owner service' record' hmem'
  have hn : n = n' := hwaiting.eq (hclient ▸ hwaiting')
  rw [hn, hask', Option.some.injEq] at hask
  rw [← hservice, ← hservice', hask]

theorem nodup_clients {records : List RequestRecord}
    (h : ∀ c, (ofClient c records).length ≤ 1) : (records.map (·.clientId)).Nodup := by
  induction records with
  | nil => exact List.nodup_nil
  | cons record records ih =>
      rw [List.map_cons, List.nodup_cons]
      constructor
      · intro hmem
        obtain ⟨other, hother, hclient⟩ := List.mem_map.mp hmem
        have hle := h record.clientId
        rw [ofClient_cons, if_pos rfl, List.length_cons] at hle
        have hnil : ofClient record.clientId records = [] :=
          List.eq_nil_of_length_eq_zero (by omega)
        have : other ∈ ofClient record.clientId records := mem_ofClient.mpr ⟨hother, hclient⟩
        simp [hnil] at this
      · refine ih fun c => le_trans ?_ (h c)
        rw [ofClient_cons]
        split
        · simp
        · exact le_rfl

/-! ### A request -/

theorem Kept.mono_ledger (h : Kept fit l db) {l' : Ledger}
    (hwaiting : ∀ service, ∀ record ∈ db.pending service, ∀ n,
      l.Waiting record.clientId n → l'.Waiting record.clientId n)
    (hasks : ∀ (n : ℕ) (ask : Ask), l.asks[n]? = some ask → l'.asks[n]? = some ask) :
    Kept fit l' db where
  owner service record hmem := by
    obtain ⟨n, ask, hw, hask, hservice, hfit⟩ := h.owner service record hmem
    exact ⟨n, ask, hwaiting service record hmem n hw, hasks n ask hask, hservice, hfit⟩
  single := h.single

/-- The request of a client that was not waiting touches no record. -/
theorem Kept.ask (h : Kept fit l db) (hidle : ∀ n, ¬ l.Waiting c n) (request : RequestModule) :
    Kept fit (l.ask c request) db := by
  refine h.mono_ledger ?_ ?_
  · intro service record hmem n hw
    have hne : record.clientId ≠ c := by
      intro heq
      exact hidle n (heq ▸ hw)
    exact (Ledger.waiting_ask_of_ne hne request).mpr hw
  · intro n ask hask
    rw [Ledger.asks_ask_of_lt (List.getElem?_eq_some_iff.mp hask).1, hask]

/-- The record `push_request` files for a new request. -/
theorem Kept.push (h : Kept fit l db) (hsound : l.Sound good) (hidle : ∀ n, ¬ l.Waiting c n)
    {request : RequestModule} (hrecord : db.servicesDb request.service = some record)
    (hfit : fit l.asks.length []) (deadline : Timespec) :
    Kept fit (l.ask c request) (db.insert request.service { record with
      requestRecords := record.requestRecords ++ [⟨c, [], deadline⟩] }) where
  owner service pending hmem := by
    by_cases hservice : service = request.service
    · subst hservice
      rw [ServiceDatabase.pending_insert_self, List.mem_append] at hmem
      rcases hmem with hmem | hmem
      · rw [← ServiceDatabase.pending_of_some hrecord] at hmem
        exact (h.ask hidle request).owner _ _ hmem
      · rw [List.mem_singleton.mp hmem]
        exact ⟨l.asks.length, ⟨c, request⟩, Ledger.waiting_ask_self hsound c request,
          Ledger.asks_ask_length request, rfl, hfit⟩
    · rw [ServiceDatabase.pending_insert_of_ne db hservice] at hmem
      exact (h.ask hidle request).owner _ _ hmem
  single service c' := by
    by_cases hservice : service = request.service
    · subst hservice
      have hle := h.single request.service c'
      rw [ServiceDatabase.pending_of_some hrecord] at hle
      rw [ServiceDatabase.pending_insert_self, ofClient_append, ofClient_cons]
      split
      · rename_i heq
        have hc : c = c' := heq
        have hnil := h.ofClient_nil hidle request.service
        rw [ServiceDatabase.pending_of_some hrecord, hc] at hnil
        simp [hnil]
      · simpa using hle
    · rw [ServiceDatabase.pending_insert_of_ne db hservice]
      exact h.single service c'

/-! ### A result -/

theorem mem_appendResult {records : List RequestRecord} {v : Int32} {pending : RequestRecord} :
    pending ∈ appendResult c v records ↔ ∃ old ∈ records,
      (if old.clientId = c then withResult v old else old) = pending := by
  rw [appendResult_eq, List.mem_map]

/-- A result that is appended to the record of a client. -/
theorem Kept.append (h : Kept fit l db) (hrecord : db.servicesDb service = some record)
    {v : Int32} (hpending : ofClient c record.requestRecords ≠ [])
    (hself : ∀ n results, l.Waiting c n → fit n results → fit' n (results ++ [v]))
    (hother : ∀ c' n results, c' ≠ c → l.Waiting c' n → fit n results → fit' n results) :
    Kept fit' l (db.insert service { record with
      requestRecords := appendResult c v record.requestRecords }) where
  owner other pending hmem := by
    by_cases hservice : other = service
    · subst hservice
      rw [ServiceDatabase.pending_insert_self] at hmem
      obtain ⟨old, hold, rfl⟩ := mem_appendResult.mp hmem
      rw [← ServiceDatabase.pending_of_some hrecord] at hold
      obtain ⟨n, ask, hw, hask, hservice, hfit⟩ := h.owner _ _ hold
      by_cases hclient : old.clientId = c
      · rw [if_pos hclient]
        exact ⟨n, ask, hw, hask, hservice, hself n _ (hclient ▸ hw) hfit⟩
      · rw [if_neg hclient]
        exact ⟨n, ask, hw, hask, hservice, hother _ n _ hclient hw hfit⟩
    · rw [ServiceDatabase.pending_insert_of_ne db hservice] at hmem
      obtain ⟨n, ask, hw, hask, hservice', hfit⟩ := h.owner _ _ hmem
      -- the client whose record got the result has none under another service
      have hclient : pending.clientId ≠ c := by
        intro heq
        obtain ⟨found, hfound⟩ := List.exists_mem_of_ne_nil _ hpending
        obtain ⟨hfound, hc⟩ := mem_ofClient.mp hfound
        rw [← ServiceDatabase.pending_of_some hrecord] at hfound
        exact hservice (h.service_eq hmem hfound (heq.trans hc.symm))
      exact ⟨n, ask, hw, hask, hservice', hother _ n _ hclient hw hfit⟩
  single other c' := by
    by_cases hservice : other = service
    · subst hservice
      have hle := h.single other c'
      rw [ServiceDatabase.pending_of_some hrecord] at hle
      rw [ServiceDatabase.pending_insert_self]
      by_cases hclient : c' = c
      · rw [hclient, ofClient_appendResult_self, List.length_map, ← hclient]
        exact hle
      · rw [ofClient_appendResult_of_ne hclient]
        exact hle
    · rw [ServiceDatabase.pending_insert_of_ne db hservice]
      exact h.single other c'

/-! ### An answer -/

/-- The answer to a client whose record is deleted with it. -/
theorem Kept.answer (h : Kept fit l db) (hsound : l.Sound good)
    (hrecord : db.servicesDb service = some record)
    (hpending : ofClient c record.requestRecords ≠ []) (response : ResponseModule) :
    Kept fit (l.respond c response) (db.insert service { record with
      requestRecords := deleteLoop c record.requestRecords }) := by
  have hstored := ServiceDatabase.pending_of_some hrecord
  -- every record that is left was there before and is another client's
  have hleft : ∀ other, ∀ pending ∈ (db.insert service { record with
      requestRecords := deleteLoop c record.requestRecords }).pending other,
      pending ∈ db.pending other ∧ pending.clientId ≠ c := by
    intro other pending hmem
    by_cases hservice : other = service
    · subst hservice
      rw [ServiceDatabase.pending_insert_self] at hmem
      refine ⟨hstored ▸ (deleteLoop_sublist c _).subset hmem, ?_⟩
      intro heq
      have hgone := ofClient_deleteLoop_self (hstored ▸ h.single other c)
      have : pending ∈ ofClient c (deleteLoop c record.requestRecords) :=
        mem_ofClient.mpr ⟨hmem, heq⟩
      simp [hgone] at this
    · rw [ServiceDatabase.pending_insert_of_ne db hservice] at hmem
      refine ⟨hmem, fun heq => hservice ?_⟩
      obtain ⟨found, hfound⟩ := List.exists_mem_of_ne_nil _ hpending
      obtain ⟨hfound, hc⟩ := mem_ofClient.mp hfound
      exact h.service_eq hmem (hstored ▸ hfound) (heq.trans hc.symm)
  refine ⟨?_, ?_⟩
  · intro other pending hmem
    obtain ⟨hold, hne⟩ := hleft other pending hmem
    obtain ⟨n, ask, hw, hask, hservice, hfit⟩ := h.owner other pending hold
    exact ⟨n, ask, (hsound.waiting_respond_of_ne hne response).mpr hw,
      by rw [Ledger.asks_respond, hask], hservice, hfit⟩
  · intro other c'
    by_cases hservice : other = service
    · subst hservice
      rw [ServiceDatabase.pending_insert_self]
      exact (ofClient_deleteLoop_length_le c' c _).trans (hstored ▸ h.single other c')
    · rw [ServiceDatabase.pending_insert_of_ne db hservice]
      exact h.single other c'

end ReliableService
