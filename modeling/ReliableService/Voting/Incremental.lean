import ReliableService.Handlers.Effects
import Mathlib.Data.List.Perm.Basic

/-!
# Voting reply by reply

`get_response` votes as soon as more than `nmr / 2` results are in, answers when there is a
winner, and ignores what comes after.  `verdict` is the vote over all results at once.

The comparison goes pair by pair.  For one service and one client, the handler sees the
list of results filed so far; it is `Open` (no winner, not complete) until the reply that
decides (`getResponse_verdict`).  Replies to any other pair leave it alone
(`ofClient_of_other`), so an induction over the arrivals follows one pair through all of
them (`answersTo_of_open`).  An early winner is the final winner because votes are only
added (`Wins.append`).
-/

namespace ReliableService

open ServiceRecord Majority

/-- One call of `get_response`. -/
structure Arrival where
  dealerIndex : ℕ
  reply : ServerReply
  clientId : ClientId

/-- A reply with a result. -/
def Arrival.Plain (a : Arrival) : Prop := a.reply.heartbeat = false ∧ a.reply.duplicated = false

instance Arrival.decidablePlain (a : Arrival) : Decidable a.Plain :=
  inferInstanceAs (Decidable (_ ∧ _))

/-- The results that arrive for a client at a service. -/
def resultsFor (service : ServiceType) (c : ClientId) (arrivals : List Arrival) : List Int32 :=
  (arrivals.filter fun a => a.Plain ∧ a.reply.service = service ∧ a.clientId = c).map
    (·.reply.result)

/-- The vote over all results at once.  A refusal carries the variable `result` that `vote`
was given, which nothing has written. -/
def verdict (nmr : UInt8) (values : List Int32) : ResponseModule :=
  match values.find? fun v => Wins (nmr.toNat / 2) v values with
  | some v => ⟨.serviceAvailable, some v⟩
  | none => ⟨.serviceNotReliable, none⟩

variable {nmr : UInt8} {values : List Int32}

theorem verdict_of_wins {v : Int32} (hlength : values.length ≤ nmr.toNat)
    (hwins : Wins (nmr.toNat / 2) v values) : verdict nmr values = ⟨.serviceAvailable, some v⟩ := by
  unfold verdict
  cases hfind : values.find? fun v => Wins (nmr.toNat / 2) v values with
  | none =>
      have := List.find?_eq_none.mp hfind v hwins.mem
      simp [hwins] at this
  | some w =>
      have hw : Wins (nmr.toNat / 2) w values := by simpa using List.find?_some hfind
      rw [eq_of_wins hw hwins hlength]

theorem verdict_of_no_winner (hnone : ∀ v, ¬ Wins (nmr.toNat / 2) v values) :
    verdict nmr values = ⟨.serviceNotReliable, none⟩ := by
  unfold verdict
  rw [List.find?_eq_none.mpr fun v _ => by simp [hnone v]]

/-- The verdict names a value exactly if that value wins. -/
theorem verdict_available_iff (hlength : values.length ≤ nmr.toNat) (v : Int32) :
    verdict nmr values = ⟨.serviceAvailable, some v⟩ ↔ nmr.toNat / 2 < values.count v := by
  refine ⟨?_, fun h => verdict_of_wins hlength h⟩
  intro h
  unfold verdict at h
  split at h
  · rename_i w hfind
    have hw : Wins (nmr.toNat / 2) w values := by simpa using List.find?_some hfind
    have hvw : w = v := by simpa using h
    exact hvw ▸ hw
  · simp at h

/-- The verdict is a refusal exactly if no value wins. -/
theorem verdict_refusal_iff (hlength : values.length ≤ nmr.toNat) :
    (verdict nmr values).serviceStatus = .serviceNotReliable ↔
      ∀ v, ¬ nmr.toNat / 2 < values.count v := by
  refine ⟨?_, ?_⟩
  · intro h v hv
    rw [verdict_of_wins hlength hv] at h
    cases h
  · intro h
    rw [verdict_of_no_winner h]

/-- The verdict does not depend on the order of the results. -/
theorem verdict_perm {values' : List Int32} (hperm : values.Perm values')
    (hlength : values.length ≤ nmr.toNat) : verdict nmr values = verdict nmr values' := by
  by_cases hwinner : ∃ v, Wins (nmr.toNat / 2) v values
  · obtain ⟨v, hv⟩ := hwinner
    rw [verdict_of_wins hlength hv, verdict_of_wins (hperm.length_eq ▸ hlength) (hv.perm hperm)]
  · have hnone := not_exists.mp hwinner
    rw [verdict_of_no_winner hnone, verdict_of_no_winner fun v hv => hnone v (hv.perm hperm.symm)]

namespace Broker

variable {b b' : Broker nmr} {service : ServiceType} {c : ClientId} {a : Arrival}

/-- One arrival. -/
def receive (b : Broker nmr) (a : Arrival) : Effect (Broker nmr) :=
  getResponse everyone b a.dealerIndex a.reply a.clientId

/-- The arrival comes from a copy of a registered service, and a pong from a copy the
record has a slot for. -/
def Admissible (b : Broker nmr) (a : Arrival) : Prop :=
  (a.Plain → b.db.servicesDb a.reply.service ≠ none) ∧
    (a.reply.heartbeat = true →
      b.db.servicesDb a.reply.service ≠ none ∧ a.reply.id.toNat < nmr.toNat)

instance (b : Broker nmr) (a : Arrival) : Decidable (b.Admissible a) :=
  inferInstanceAs (Decidable ((_ → _) ∧ (_ → _)))

/-- Results that do not decide yet. -/
def Undecided (nmr : UInt8) (values : List Int32) : Prop :=
  values.length < nmr.toNat ∧ ∀ v, ¬ Wins (nmr.toNat / 2) v values

/-- Every pair has at most one record, and none of the records is decided. -/
structure Open (b : Broker nmr) : Prop where
  single : ∀ service c, (ofClient c (b.db.pending service)).length ≤ 1
  undecided : ∀ service, ∀ record ∈ b.db.pending service, Undecided nmr record.results

/-! ## One arrival -/

/-- The record of a pair. -/
theorem Open.eq_singleton (hopen : b.Open) {record : RequestRecord}
    (hmem : record ∈ b.db.pending service) :
    ofClient record.clientId (b.db.pending service) = [record] := by
  have hmem' : record ∈ ofClient record.clientId (b.db.pending service) :=
    mem_ofClient.mpr ⟨hmem, rfl⟩
  have hle := hopen.single service record.clientId
  cases h : ofClient record.clientId (b.db.pending service) with
  | nil => simp [h] at hmem'
  | cons first rest =>
      rw [h] at hle hmem'
      have hrest : rest = [] := List.eq_nil_of_length_eq_zero (by simpa using hle)
      subst hrest
      rw [List.mem_singleton.mp hmem']

/-- **A plain reply to an open record**: it is filed, or it decides and the response is the
verdict over what has arrived. -/
theorem getResponse_verdict (hopen : b.Open) (hplain : a.Plain) {pending : RequestRecord}
    (hpending : ofClient a.clientId (b.db.pending a.reply.service) = [pending]) :
    ∃ record, b.db.servicesDb a.reply.service = some record ∧
      (Undecided nmr (pending.results ++ [a.reply.result]) ∧
          b.receive a = pure (b.counted record a.reply a.clientId) ∨
        ¬ Undecided nmr (pending.results ++ [a.reply.result]) ∧
          b.receive a =
            ⟨[.router a.clientId (verdict nmr (pending.results ++ [a.reply.result]))],
              .ok (b.decided record a.reply a.clientId)⟩) := by
  obtain ⟨record, hrecord⟩ : ∃ record, b.db.servicesDb a.reply.service = some record := by
    rw [← Option.ne_none_iff_exists']
    intro hnone
    simp [ServiceDatabase.pending_of_none hnone] at hpending
  refine ⟨record, hrecord, ?_⟩
  have hmem : pending ∈ b.db.pending a.reply.service := by
    have : pending ∈ ofClient a.clientId (b.db.pending a.reply.service) := by simp [hpending]
    exact (mem_ofClient.mp this).1
  obtain ⟨hshort, -⟩ := hopen.undecided _ _ hmem
  have hlast : (ofClient a.clientId record.requestRecords).getLast? = some pending := by
    rw [← ServiceDatabase.pending_of_some hrecord, hpending]
    rfl
  have hlength : (pending.results ++ [a.reply.result]).length = pending.results.length + 1 := by
    simp
  have hle : (pending.results ++ [a.reply.result]).length ≤ nmr.toNat := by omega
  rw [receive, getResponse_counted hplain.1 hplain.2 hrecord hlast]
  by_cases hwinner : ∃ v, Wins (nmr.toNat / 2) v (pending.results ++ [a.reply.result])
  · obtain ⟨v, hv⟩ := hwinner
    obtain ⟨ret, hret, hvote⟩ := vote_of_wins hle hv none
    refine Or.inr ⟨fun hundecided => hundecided.2 v hv, ?_⟩
    have hmajority := hlength ▸ hv.lt_length
    rw [if_pos hmajority, hvote, Outcome.pure_bind', verdict_of_wins hle hv]
    dsimp only
    rw [if_pos hret]
    rfl
  · have hnone := not_exists.mp hwinner
    rw [vote_of_no_winner hle hnone none, Outcome.pure_bind', verdict_of_no_winner hnone]
    have hret : ¬ (0 : Int8) ≤ -1 := by decide
    dsimp only
    rw [if_neg hret]
    by_cases hall : pending.results.length + 1 = nmr.toNat
    · refine Or.inr ⟨?_, ?_⟩
      · intro hundecided
        have := hundecided.1
        omega
      · rw [if_pos (by omega), if_pos hall]
        rfl
    · refine Or.inl ⟨⟨by omega, hnone⟩, ?_⟩
      rw [if_neg hall]
      exact ite_self _

/-- What an admissible arrival does to an open broker. -/
inductive Arrives (b : Broker nmr) (a : Arrival) (b' : Broker nmr) : List Output → Prop
  /-- A pong, a duplicate, or a reply nobody waits for. -/
  | quiet (hsame : ∀ service, b'.db.pending service = b.db.pending service)
      (hnone : a.Plain → ofClient a.clientId (b.db.pending a.reply.service) = [] ∧ b' = b) :
      Arrives b a b' []
  /-- A result that is filed. -/
  | filed (record : ServiceRecord nmr) (pending : RequestRecord) (hplain : a.Plain)
      (hrecord : b.db.servicesDb a.reply.service = some record)
      (hpending : ofClient a.clientId (b.db.pending a.reply.service) = [pending])
      (hundecided : Undecided nmr (pending.results ++ [a.reply.result]))
      (hb' : b' = b.counted record a.reply a.clientId) : Arrives b a b' []
  /-- A result that decides. -/
  | decides (record : ServiceRecord nmr) (pending : RequestRecord) (hplain : a.Plain)
      (hrecord : b.db.servicesDb a.reply.service = some record)
      (hpending : ofClient a.clientId (b.db.pending a.reply.service) = [pending])
      (hdecided : ¬ Undecided nmr (pending.results ++ [a.reply.result]))
      (hb' : b' = b.decided record a.reply a.clientId) :
      Arrives b a b' [.router a.clientId (verdict nmr (pending.results ++ [a.reply.result]))]

/-- **An admissible arrival never fails**, and there are three things it can do. -/
theorem arrives (hopen : b.Open) (hadmissible : b.Admissible a) :
    ∃ b', (b.receive a).result = .ok b' ∧ Arrives b a b' (b.receive a).sent ∧
      ∀ service, b'.db.servicesDb service = none ↔ b.db.servicesDb service = none := by
  have hinsert : ∀ {service other : ServiceType} {record record' : ServiceRecord nmr},
      b.db.servicesDb service = some record →
        ((b.db.insert service record').servicesDb other = none ↔
          b.db.servicesDb other = none) := by
    intro service other record record' hrecord
    by_cases hother : other = service
    · simp [hother, hrecord]
    · rw [ServiceDatabase.insert_of_ne b.db hother]
  by_cases hplain : a.Plain
  · obtain ⟨record, hrecord⟩ := Option.ne_none_iff_exists'.mp (hadmissible.1 hplain)
    cases hpending : ofClient a.clientId (b.db.pending a.reply.service) with
    | nil =>
        have heq : b.receive a = pure b := getResponse_unclaimed hplain.1 hplain.2 hrecord
          (by rwa [ServiceDatabase.pending_of_some hrecord] at hpending)
        rw [heq]
        exact ⟨b, rfl, .quiet (fun _ => rfl) fun _ => ⟨hpending, rfl⟩, fun _ => Iff.rfl⟩
    | cons pending rest =>
        have hle := hopen.single a.reply.service a.clientId
        rw [hpending, List.length_cons] at hle
        obtain rfl : rest = [] := List.eq_nil_of_length_eq_zero (by omega)
        obtain ⟨record', hrecord', ⟨hundecided, heq⟩ | ⟨hdecided, heq⟩⟩ :=
          getResponse_verdict hopen hplain hpending
        · rw [heq]
          exact ⟨_, rfl, .filed record' pending hplain hrecord' hpending hundecided rfl,
            fun _ => hinsert hrecord'⟩
        · rw [heq]
          exact ⟨_, rfl, .decides record' pending hplain hrecord' hpending hdecided rfl,
            fun _ => hinsert hrecord'⟩
  · by_cases hpong : a.reply.heartbeat = true
    · obtain ⟨hregistered, hid⟩ := hadmissible.2 hpong
      obtain ⟨record, hrecord⟩ := Option.ne_none_iff_exists'.mp hregistered
      have heq : b.receive a = pure { b with
          db := b.db.insert a.reply.service (record.registerPong ⟨a.reply.id.toNat, hid⟩) } := by
        rw [receive, getResponse_pong hpong, ServiceDatabase.registerPong_of_some hrecord hid,
          Outcome.pure_bind']
      rw [heq]
      refine ⟨_, rfl, .quiet ?_ fun h => absurd h hplain, fun _ => hinsert hrecord⟩
      apply ServiceDatabase.pending_insert_of_eq
      rw [ServiceDatabase.pending_of_some hrecord]
      rfl
    · rw [Bool.not_eq_true] at hpong
      have hdup : a.reply.duplicated = true := by
        by_contra hdup
        exact hplain ⟨hpong, by simpa using hdup⟩
      have heq : b.receive a = pure b := getResponse_duplicated hpong hdup
      rw [heq]
      exact ⟨b, rfl, .quiet (fun _ => rfl) fun h => absurd h hplain, fun _ => Iff.rfl⟩

/-- The arrival is a result for this pair. -/
def IsFor (service : ServiceType) (c : ClientId) (a : Arrival) : Prop :=
  a.Plain ∧ a.reply.service = service ∧ a.clientId = c

instance (service : ServiceType) (c : ClientId) (a : Arrival) : Decidable (IsFor service c a) :=
  inferInstanceAs (Decidable (_ ∧ _ ∧ _))

/-- **The frame rule**: an arrival leaves the records of every other pair alone. -/
theorem ofClient_of_other {sent : List Output} (h : Arrives b a b' sent)
    (hother : ¬ IsFor service c a) :
    ofClient c (b'.db.pending service) = ofClient c (b.db.pending service) := by
  have hrecords : ∀ {record : ServiceRecord nmr}, b.db.servicesDb a.reply.service = some record →
      a.Plain → ∀ record' : ServiceRecord nmr,
        (a.clientId ≠ c → ofClient c record'.requestRecords = ofClient c record.requestRecords) →
          ofClient c ((b.db.insert a.reply.service record').pending service) =
            ofClient c (b.db.pending service) := by
    intro record hrecord hplain record' hne
    by_cases hservice : service = a.reply.service
    · have hclient : a.clientId ≠ c := fun hc => hother ⟨hplain, hservice.symm, hc⟩
      rw [hservice, ServiceDatabase.pending_insert_self, ServiceDatabase.pending_of_some hrecord,
        hne hclient]
    · rw [ServiceDatabase.pending_insert_of_ne b.db hservice]
  cases h with
  | quiet hsame _ => rw [hsame service]
  | filed record pending hplain hrecord _ _ hb' =>
      rw [hb']
      exact hrecords hrecord hplain _ fun hne => ofClient_appendResult_of_ne (Ne.symm hne) _
  | decides record pending hplain hrecord _ _ hb' =>
      rw [hb']
      apply hrecords hrecord hplain _
      intro hne
      exact (ofClient_deleteLoop_of_ne (Ne.symm hne)).trans
        (ofClient_appendResult_of_ne (Ne.symm hne) _)

/-- A result that is filed is at the end of the pair's record. -/
theorem ofClient_counted {record : ServiceRecord nmr} {pending : RequestRecord}
    (hrecord : b.db.servicesDb a.reply.service = some record)
    (hpending : ofClient a.clientId (b.db.pending a.reply.service) = [pending]) :
    ofClient a.clientId ((b.counted record a.reply a.clientId).db.pending a.reply.service) =
      [withResult a.reply.result pending] := by
  rw [ServiceDatabase.pending_of_some hrecord] at hpending
  rw [counted, ServiceDatabase.pending_insert_self, withReply, ofClient_appendResult_self, hpending]
  rfl

/-- A pair that is decided has no record. -/
theorem ofClient_decided {record : ServiceRecord nmr} {pending : RequestRecord}
    (hrecord : b.db.servicesDb a.reply.service = some record)
    (hpending : ofClient a.clientId (b.db.pending a.reply.service) = [pending]) :
    ofClient a.clientId
      ((b.decided record a.reply a.clientId).db.pending a.reply.service) = [] := by
  rw [ServiceDatabase.pending_of_some hrecord] at hpending
  rw [decided, ServiceDatabase.pending_insert_self]
  apply ofClient_deleteLoop_self
  rw [withReply, ofClient_appendResult_self, hpending]
  exact le_rfl

theorem Arrives.open {sent : List Output} (h : Arrives b a b' sent) (hopen : b.Open) : b'.Open := by
  -- every record is either another pair's or the one that got the result
  have hpair : ∀ service c, ofClient c (b'.db.pending service) = ofClient c (b.db.pending service) ∨
      ofClient c (b'.db.pending service) = [] ∨
      ∃ record, ofClient c (b'.db.pending service) = [record] ∧ Undecided nmr record.results := by
    intro service c
    by_cases hfor : IsFor service c a
    · obtain ⟨hplain, rfl, rfl⟩ := hfor
      cases h with
      | quiet hsame _ => exact Or.inl (by rw [hsame])
      | filed record pending _ hrecord hpending hundecided hb' =>
          subst hb'
          exact Or.inr (Or.inr ⟨_, ofClient_counted hrecord hpending, hundecided⟩)
      | decides record pending _ hrecord hpending _ hb' =>
          subst hb'
          exact Or.inr (Or.inl (ofClient_decided hrecord hpending))
    · exact Or.inl (ofClient_of_other h hfor)
  refine ⟨?_, ?_⟩
  · intro service c
    rcases hpair service c with heq | heq | ⟨record, heq, -⟩
    · rw [heq]
      exact hopen.single service c
    · simp [heq]
    · simp [heq]
  · intro service record hmem
    have hmem' : record ∈ ofClient record.clientId (b'.db.pending service) :=
      mem_ofClient.mpr ⟨hmem, rfl⟩
    rcases hpair service record.clientId with heq | heq | ⟨other, heq, hundecided⟩
    · rw [heq] at hmem'
      exact hopen.undecided service record (mem_ofClient.mp hmem').1
    · simp [heq] at hmem'
    · rw [heq] at hmem'
      rw [List.mem_singleton.mp hmem']
      exact hundecided

/-! ## All arrivals -/

/-- A run of `get_response`. -/
def receiveAll (b : Broker nmr) (arrivals : List Arrival) : Effect (Broker nmr) :=
  arrivals.foldlM receive b

/-- What arrivals for this pair cause the broker to send. -/
def answersTo (service : ServiceType) (c : ClientId) (b : Broker nmr) :
    List Arrival → List Output
  | [] => []
  | a :: arrivals =>
      (if a.reply.service = service ∧ a.clientId = c then (b.receive a).sent else []) ++
        match (b.receive a).result with
        | .ok b' => answersTo service c b' arrivals
        | .error _ => []

theorem answersTo_cons {b' : Broker nmr} {arrivals : List Arrival}
    (h : (b.receive a).result = .ok b') :
    answersTo service c b (a :: arrivals) =
      (if a.reply.service = service ∧ a.clientId = c then (b.receive a).sent else []) ++
        answersTo service c b' arrivals := by
  rw [answersTo, h]

/-- An arrival that is no result for the pair causes no response to it. -/
theorem sent_of_other {sent : List Output} (h : Arrives b a b' sent)
    (hother : ¬ IsFor service c a) :
    (if a.reply.service = service ∧ a.clientId = c then sent else []) = [] := by
  split
  · rename_i hpair
    cases h with
    | quiet _ _ => rfl
    | filed _ _ _ _ _ _ _ => rfl
    | decides record pending hplain _ _ _ _ => exact absurd ⟨hplain, hpair⟩ hother
  · rfl

theorem resultsFor_cons (arrivals : List Arrival) :
    resultsFor service c (a :: arrivals) =
      if IsFor service c a then a.reply.result :: resultsFor service c arrivals
      else resultsFor service c arrivals := by
  unfold resultsFor
  rw [List.filter_cons]
  by_cases h : IsFor service c a
  · rw [if_pos h, if_pos (by simpa [IsFor] using h)]
    rfl
  · rw [if_neg h, if_neg (by simpa [IsFor] using h)]

theorem Admissible.congr {a : Arrival} (h : b.Admissible a)
    (hnone : ∀ service, b'.db.servicesDb service = none ↔ b.db.servicesDb service = none) :
    b'.Admissible a := by
  simpa [Admissible, hnone] using h

/-- The broker survives all arrivals and stays open. -/
theorem receiveAll_ok {arrivals : List Arrival} (hopen : b.Open)
    (hadmissible : ∀ a ∈ arrivals, b.Admissible a) :
    ∃ b', (b.receiveAll arrivals).result = .ok b' ∧ b'.Open := by
  induction arrivals generalizing b with
  | nil => exact ⟨b, rfl, hopen⟩
  | cons a arrivals ih =>
      obtain ⟨b', hb', harrives, hnone⟩ := arrives hopen (hadmissible a List.mem_cons_self)
      obtain ⟨b'', hb'', hopen''⟩ := ih (harrives.open hopen) fun a' ha' =>
        (hadmissible a' (List.mem_cons_of_mem a ha')).congr hnone
      exact ⟨b'', Outcome.bind_result_ok.mpr ⟨b', hb', hb''⟩, hopen''⟩

/-- A pair without a record gets no response. -/
theorem answersTo_of_nil {arrivals : List Arrival} (hopen : b.Open)
    (hadmissible : ∀ a ∈ arrivals, b.Admissible a)
    (hnil : ofClient c (b.db.pending service) = []) :
    answersTo service c b arrivals = [] := by
  induction arrivals generalizing b with
  | nil => rfl
  | cons a arrivals ih =>
      obtain ⟨b', hb', harrives, hnone⟩ := arrives hopen (hadmissible a List.mem_cons_self)
      have hrest : ∀ a' ∈ arrivals, b'.Admissible a' := fun a' ha' =>
        (hadmissible a' (List.mem_cons_of_mem a ha')).congr hnone
      rw [answersTo_cons hb']
      by_cases hfor : IsFor service c a
      · obtain ⟨hplain, rfl, rfl⟩ := hfor
        have hquiet : (b.receive a).sent = [] ∧ b' = b := by
          generalize (b.receive a).sent = sent at harrives
          cases harrives with
          | quiet _ hnone => exact ⟨rfl, (hnone hplain).2⟩
          | filed _ _ _ _ hpending _ _ => simp [hpending] at hnil
          | decides _ _ _ _ hpending _ _ => simp [hpending] at hnil
        obtain ⟨hsent, rfl⟩ := hquiet
        rw [if_pos ⟨rfl, rfl⟩, hsent, List.nil_append]
        exact ih hopen hrest hnil
      · rw [sent_of_other harrives hfor, List.nil_append]
        exact ih (harrives.open hopen) hrest ((ofClient_of_other harrives hfor).trans hnil)

/-- A decision stands: either a value has won already, or these were the last results. -/
theorem verdict_of_decided {first later : List Int32}
    (hlength : first.length + later.length = nmr.toNat)
    (hdecided : ¬ Undecided nmr first) :
    verdict nmr first = verdict nmr (first ++ later) := by
  by_cases hwinner : ∃ v, Wins (nmr.toNat / 2) v first
  · obtain ⟨v, hv⟩ := hwinner
    have hfinal : (first ++ later).length ≤ nmr.toNat := by
      rw [List.length_append, hlength]
    rw [verdict_of_wins (by omega) hv, verdict_of_wins hfinal (hv.append later)]
  · have hdone : later = [] := by
      apply List.eq_nil_of_length_eq_zero
      by_contra hpos
      exact hdecided ⟨by omega, not_exists.mp hwinner⟩
    rw [hdone, List.append_nil]

/-- **An open pair gets exactly one response**, and it is the verdict over all results, the
filed ones and the ones that arrive. -/
theorem answersTo_of_open {arrivals : List Arrival} (hopen : b.Open)
    (hadmissible : ∀ a ∈ arrivals, b.Admissible a) {pending : RequestRecord}
    (hpending : ofClient c (b.db.pending service) = [pending])
    (hcount : pending.results.length + (resultsFor service c arrivals).length = nmr.toNat) :
    answersTo service c b arrivals =
      [.router c (verdict nmr (pending.results ++ resultsFor service c arrivals))] := by
  induction arrivals generalizing b pending with
  | nil =>
      have hmem : pending ∈ b.db.pending service := by
        have : pending ∈ ofClient c (b.db.pending service) := by simp [hpending]
        exact (mem_ofClient.mp this).1
      have hshort := (hopen.undecided service pending hmem).1
      simp [resultsFor] at hcount
      omega
  | cons a arrivals ih =>
      obtain ⟨b', hb', harrives, hnone⟩ := arrives hopen (hadmissible a List.mem_cons_self)
      have hrest : ∀ a' ∈ arrivals, b'.Admissible a' := fun a' ha' =>
        (hadmissible a' (List.mem_cons_of_mem a ha')).congr hnone
      have hopen' := harrives.open hopen
      rw [answersTo_cons hb', resultsFor_cons] at *
      by_cases hfor : IsFor service c a
      · rw [if_pos hfor] at hcount ⊢
        rw [List.length_cons] at hcount
        obtain ⟨hplain, rfl, rfl⟩ := hfor
        rw [if_pos ⟨rfl, rfl⟩]
        generalize (b.receive a).sent = sent at harrives
        cases harrives with
        | quiet _ hnone => simp [(hnone hplain).1] at hpending
        | filed record old _ hrecord hold hundecided heq =>
            obtain rfl : old = pending := by simpa [hpending] using hold.symm
            subst heq
            have hlater := ih hopen' hrest (ofClient_counted hrecord hpending)
              (by simp only [withResult, List.length_append, List.length_singleton]; omega)
            rw [hlater]
            simp [withResult]
        | decides record old _ hrecord hold hdecided heq =>
            obtain rfl : old = pending := by simpa [hpending] using hold.symm
            subst heq
            rw [answersTo_of_nil hopen' hrest (ofClient_decided hrecord hpending), List.append_nil]
            refine congrArg (fun response => [Output.router a.clientId response]) ?_
            rw [List.append_cons old.results a.reply.result (resultsFor ..)]
            apply verdict_of_decided
            · simp only [List.length_append, List.length_singleton]
              omega
            · exact hdecided
      · rw [if_neg hfor] at hcount ⊢
        rw [sent_of_other harrives hfor, List.nil_append]
        exact ih hopen' hrest ((ofClient_of_other harrives hfor).trans hpending) hcount

/-- Without requests, a pair that has no record has none later. -/
theorem ofClient_nil_of_nil {sent : List Output} (h : Arrives b a b' sent)
    (hnil : ofClient c (b.db.pending service) = []) : ofClient c (b'.db.pending service) = [] := by
  by_cases hfor : IsFor service c a
  · obtain ⟨hplain, rfl, rfl⟩ := hfor
    cases h with
    | quiet hsame _ => rw [hsame, hnil]
    | filed _ _ _ _ hpending _ _ => simp [hpending] at hnil
    | decides _ _ _ _ hpending _ _ => simp [hpending] at hnil
  · rw [ofClient_of_other h hfor, hnil]

/-- A pair that has been answered has no record any more. -/
theorem ofClient_nil_of_answered {arrivals : List Arrival} (hopen : b.Open)
    (hadmissible : ∀ a ∈ arrivals, b.Admissible a)
    (hanswered : ofClient c (b.db.pending service) = [] ∨ answersTo service c b arrivals ≠ [])
    (hrun : (b.receiveAll arrivals).result = .ok b') : ofClient c (b'.db.pending service) = [] := by
  induction arrivals generalizing b with
  | nil =>
      obtain rfl : b = b' := Except.ok.inj hrun
      exact hanswered.resolve_right (not_not_intro rfl)
  | cons a arrivals ih =>
      obtain ⟨t, ht, harrives, hnone⟩ := arrives hopen (hadmissible a List.mem_cons_self)
      obtain ⟨t', ht', hrun⟩ := Outcome.bind_result_ok.mp hrun
      obtain rfl : t = t' := Except.ok.inj (ht.symm.trans ht')
      refine ih (harrives.open hopen) (fun a' ha' =>
        (hadmissible a' (List.mem_cons_of_mem a ha')).congr hnone) ?_ hrun
      rcases hanswered with hnil | hanswered
      · exact Or.inl (ofClient_nil_of_nil harrives hnil)
      · rw [answersTo_cons ht] at hanswered
        by_cases hfor : IsFor service c a
        · obtain ⟨hplain, rfl, rfl⟩ := hfor
          generalize (b.receive a).sent = sent at harrives hanswered
          cases harrives with
          | quiet _ _ => exact Or.inr (by simpa using hanswered)
          | filed _ _ _ _ _ _ _ => exact Or.inr (by simpa using hanswered)
          | decides record pending _ hrecord hpending _ hb' =>
              subst hb'
              exact Or.inl (ofClient_decided hrecord hpending)
        · rw [sent_of_other harrives hfor, List.nil_append] at hanswered
          exact Or.inr hanswered

/-! ## The batch vote -/

/-- Arrivals that bring every request of the broker exactly `nmr` results. -/
structure Delivers (b : Broker nmr) (arrivals : List Arrival) : Prop where
  admissible : ∀ a ∈ arrivals, b.Admissible a
  complete : ∀ service, ∀ record ∈ b.db.pending service,
    (resultsFor service record.clientId arrivals).length = nmr.toNat

/-- The arrivals decide every request as the batch vote over its results does. -/
structure VotesLikeBatch (b : Broker nmr) (arrivals : List Arrival) : Prop where
  survives : ∃ b', (b.receiveAll arrivals).result = .ok b'
  exactly_one : ∀ service, ∀ record ∈ b.db.pending service,
    answersTo service record.clientId b arrivals =
      [.router record.clientId (verdict nmr (resultsFor service record.clientId arrivals))]
  nobody_else : ∀ service c, ofClient c (b.db.pending service) = [] →
    answersTo service c b arrivals = []
  available_iff : ∀ service, ∀ record ∈ b.db.pending service, ∀ v,
    verdict nmr (resultsFor service record.clientId arrivals) = ⟨.serviceAvailable, some v⟩ ↔
      nmr.toNat / 2 < (resultsFor service record.clientId arrivals).count v
  refusal_iff : ∀ service, ∀ record ∈ b.db.pending service,
    (verdict nmr (resultsFor service record.clientId arrivals)).serviceStatus =
        .serviceNotReliable ↔
      ∀ v, ¬ nmr.toNat / 2 < (resultsFor service record.clientId arrivals).count v
  late_ignored : ∀ before a after, arrivals = before ++ a :: after → a.Plain →
    answersTo a.reply.service a.clientId b before ≠ [] →
      ∀ b', (b.receiveAll before).result = .ok b' → b'.receive a = pure b'

/-- **Incremental voting is the batch vote**, in whatever order the replies arrive, and one
request's outcome depends on the bag of its own results only. -/
theorem votesLikeBatch (hnmr : 1 ≤ nmr)
    (hsingle : ∀ service c, (ofClient c (b.db.pending service)).length ≤ 1)
    (hempty : ∀ service, ∀ record ∈ b.db.pending service, record.results = [])
    {arrivals : List Arrival} (hdelivers : b.Delivers arrivals) :
    b.VotesLikeBatch arrivals ∧
      ∀ arrivals', b.Delivers arrivals' → ∀ service, ∀ record ∈ b.db.pending service,
        (resultsFor service record.clientId arrivals').Perm
            (resultsFor service record.clientId arrivals) →
          answersTo service record.clientId b arrivals' =
            answersTo service record.clientId b arrivals := by
  have hpos : 1 ≤ nmr.toNat := UInt8.le_iff_toNat_le.mp hnmr
  have hopen : b.Open := by
    refine ⟨hsingle, ?_⟩
    intro service record hmem
    rw [hempty service record hmem]
    exact ⟨hpos, fun v hv => by simp [Wins] at hv⟩
  have hone : ∀ arrivals, b.Delivers arrivals → ∀ service, ∀ record ∈ b.db.pending service,
      answersTo service record.clientId b arrivals =
        [.router record.clientId (verdict nmr (resultsFor service record.clientId arrivals))] := by
    intro arrivals hdelivers service record hmem
    have hresults := hempty service record hmem
    have h := answersTo_of_open hopen hdelivers.admissible (hopen.eq_singleton hmem)
      (by rw [hresults, hdelivers.complete service record hmem]; simp)
    rwa [hresults, List.nil_append] at h
  refine ⟨⟨?_, hone arrivals hdelivers, ?_, ?_, ?_, ?_⟩, ?_⟩
  · obtain ⟨b', hb', -⟩ := receiveAll_ok hopen hdelivers.admissible
    exact ⟨b', hb'⟩
  · exact fun service c hnil => answersTo_of_nil hopen hdelivers.admissible hnil
  · exact fun service record hmem v =>
      verdict_available_iff (hdelivers.complete service record hmem).le v
  · exact fun service record hmem =>
      verdict_refusal_iff (hdelivers.complete service record hmem).le
  · rintro before a after rfl hplain hanswered b' hrun
    have hbefore : ∀ a' ∈ before, b.Admissible a' := fun a' ha' =>
      hdelivers.admissible a' (List.mem_append_left _ ha')
    have hnil := ofClient_nil_of_answered hopen hbefore (Or.inr hanswered) hrun
    have hregistered : b'.db.servicesDb a.reply.service ≠ none := by
      have hkeep : b'.Open ∧ ∀ service, b'.db.servicesDb service = none ↔
          b.db.servicesDb service = none := by
        refine Outcome.foldlM_invariant (P := fun t => t.Open ∧ ∀ service,
          t.db.servicesDb service = none ↔ b.db.servicesDb service = none) ?_
          ⟨hopen, fun _ => Iff.rfl⟩ hrun
        rintro t t' a' ha' ⟨hopen', hnone'⟩ ht'
        obtain ⟨t'', ht'', harrives, hnone''⟩ := arrives hopen' ((hbefore a' ha').congr hnone')
        obtain rfl : t'' = t' := Except.ok.inj (ht''.symm.trans ht')
        exact ⟨harrives.open hopen', fun service => (hnone'' service).trans (hnone' service)⟩
      exact fun h => (hdelivers.admissible a (by simp)).1 hplain ((hkeep.2 _).mp h)
    obtain ⟨record, hrecord⟩ := Option.ne_none_iff_exists'.mp hregistered
    rw [ServiceDatabase.pending_of_some hrecord] at hnil
    exact getResponse_unclaimed hplain.1 hplain.2 hrecord hnil
  · intro arrivals' hdelivers' service record hmem hperm
    rw [hone arrivals' hdelivers' service record hmem, hone arrivals hdelivers service record hmem,
      verdict_perm hperm (hdelivers'.complete service record hmem).le]

/-- One request at service `0`, three copies. -/
def oneRequest : Broker 3 :=
  { (init 5559 5555 : Broker 3) with
    db := ServiceDatabase.init.insert 0
      { ServiceRecord.init "pippo" dealerStartPort 0 with
        requestRecords := [⟨7, [], ⟨5, 0⟩⟩] } }

/-- A pong, a duplicate and three results, one of them wrong. -/
def threeReplies : List Arrival :=
  [⟨0, ⟨true, false, 0, 0, 2⟩, pingEnvelope⟩, ⟨0, ⟨false, false, 9, 0, 0⟩, 7⟩,
    ⟨0, ⟨false, true, 0, 0, 0⟩, 7⟩, ⟨0, ⟨false, false, 1, 0, 1⟩, 7⟩,
    ⟨0, ⟨false, false, 1, 0, 2⟩, 7⟩]

theorem votesLikeBatch_threeReplies :
    oneRequest.VotesLikeBatch threeReplies ∧
      ∀ arrivals', oneRequest.Delivers arrivals' →
        ∀ service, ∀ record ∈ oneRequest.db.pending service,
          (resultsFor service record.clientId arrivals').Perm
              (resultsFor service record.clientId threeReplies) →
            answersTo service record.clientId oneRequest arrivals' =
              answersTo service record.clientId oneRequest threeReplies := by
  have hpending : ∀ service, oneRequest.db.pending service =
      if service = 0 then [⟨7, [], ⟨5, 0⟩⟩] else [] := by
    intro service
    by_cases hservice : service = 0
    · rw [hservice]
      rfl
    · rw [if_neg hservice]
      exact ServiceDatabase.pending_insert_of_ne _ hservice _
  refine votesLikeBatch (by decide) (fun service c => ?_) (fun service record hmem => ?_)
    ⟨?_, fun service record hmem => ?_⟩
  · rw [hpending]
    split
    · rw [ofClient_cons]
      split <;> simp
    · simp
  · rw [hpending] at hmem
    split at hmem <;> simp at hmem
    rw [hmem]
  · intro a ha
    simp only [threeReplies, List.mem_cons, List.not_mem_nil, or_false] at ha
    rcases ha with rfl | rfl | rfl | rfl | rfl <;> decide
  · rw [hpending] at hmem
    split at hmem
    · rename_i hservice
      rw [List.mem_singleton.mp hmem, hservice]
      decide
    · simp at hmem

end Broker

end ReliableService
