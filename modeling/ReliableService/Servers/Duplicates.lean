import ReliableService.Requests.Numbering
import ReliableService.Servers.Losses
import ReliableService.Servers.Receipts

/-!
# Duplicates

A copy is to execute each request when it receives it first and to flag every later receipt
of it.  The one number it keeps is that of the request it expects next, with `0` for "none
yet":

* within one lifetime of the broker it does what it should as long as no number is left out
  (`exactlyOnce_iff`), for a number that is left out makes every later one look like a
  duplicate;
* a broker that is started again numbers from `0`, and the number survives in the copy.  The
  requests of the new broker are executed if its first number happens to be the one the copy
  expects (`executesFirst_iff`).
-/

namespace ReliableService

variable {α : Type*}

/-- First receipts are executed, and the others are flagged. -/
def ExactlyOnce [DecidableEq α] (log : List (α × Reaction)) : Prop :=
  EachReceipt (fun seen x reaction =>
    (reaction = .answer ↔ x ∉ seen) ∧ (reaction = .duplicated ↔ x ∈ seen)) log

/-- First receipts are executed, and nothing is flagged at its first receipt. -/
def ExecutesFirst (log : List (α × Reaction)) : Prop :=
  EachReceipt (fun seen x reaction =>
    (x ∉ seen → reaction = .answer) ∧ (reaction = .duplicated → x ∈ seen)) log

/-- In order, what has been received before was received last. -/
theorem mem_concat_iff [LE α] (hantisymm : ∀ a x : α, a ≤ x → x ≤ a → a = x) {seen : List α}
    {a x : α} (hseen : ∀ y ∈ seen, y ≤ a) (hle : a ≤ x) : x ∈ seen ++ [a] ↔ x = a := by
  rw [List.mem_append, List.mem_singleton]
  constructor
  · rintro (hmem | rfl)
    · exact (hantisymm a x hle (hseen x hmem)).symm
    · rfl
  · exact Or.inr

/-! ## One lifetime of the broker -/

/-- The second number is the first one again or the next one, and the first one has a next
one. -/
def Consecutive (seqId next : UInt32) : Prop :=
  seqId + 1 ≠ 0 ∧ (next = seqId ∨ next = seqId + 1)

instance (seqId next : UInt32) : Decidable (Consecutive seqId next) :=
  inferInstanceAs (Decidable (_ ∧ _))

theorem ne_add_one (seqId : UInt32) : seqId ≠ seqId + 1 := by
  intro h
  have := congrArg UInt32.toNat h
  simp [UInt32.toNat_add] at this
  omega

/-- The number before `0` is the largest one. -/
theorem le_of_add_one_eq_zero {seqId next : UInt32} (h : seqId + 1 = 0) : next ≤ seqId := by
  have := congrArg UInt32.toNat h
  have := next.toNat_lt
  rw [UInt32.le_iff_toNat_le]
  simp [UInt32.toNat_add] at *
  omega

theorem nextExpected_of_consecutive {seqId next : UInt32} (h : Consecutive seqId next) :
    nextExpected (seqId + 1) next = next + 1 := by
  obtain ⟨hne, rfl | rfl⟩ := h
  · rw [nextExpected, if_neg]
    rintro (hzero | heq)
    · exact hne hzero
    · exact ne_add_one _ heq
  · exact if_pos (Or.inr rfl)

/-- What follows a number in order is treated as it should be if and only if it is
consecutive. -/
theorem treated_iff_consecutive {seqId next : UInt32} (hle : seqId ≤ next) :
    ((reactionTo (seqId + 1) next = .answer ↔ next ≠ seqId) ∧
      (reactionTo (seqId + 1) next = .duplicated ↔ next = seqId)) ↔ Consecutive seqId next := by
  rw [reactionTo_eq_answer, reactionTo_eq_duplicated, Consecutive]
  by_cases hzero : seqId + 1 = 0
  · have heq : next = seqId := UInt32.le_antisymm (le_of_add_one_eq_zero hzero) hle
    simp [hzero, heq]
  · by_cases heq : next = seqId
    · simp [hzero, heq]
    · simp [hzero, heq]

namespace ServerLoop

variable {service : ServiceType} {l : ServerLoop} {sent : List ServerAct}

/-- The numbers of the requests a copy has received, and what was done about them. -/
def numberLog (sent : List ServerAct) : List (UInt32 × Reaction) :=
  (requestLog sent).map fun entry => (entry.1.seqId, entry.2)

/-- **Duplicates are recognised exactly** as long as the numbers received leave none out. -/
theorem exactlyOnce_iff (service : ServiceType) (iterations : List Iteration)
    (hsorted : ((numberLog (init.run service iterations).sent).map Prod.fst).Pairwise (· ≤ ·)) :
    ExactlyOnce (numberLog (init.run service iterations).sent) ↔
      ((numberLog (init.run service iterations).sent).map Prod.fst).IsChain Consecutive := by
  have hlog : numberLog (init.run service iterations).sent =
      answers id 0 ((numberLog (init.run service iterations).sent).map Prod.fst) := by
    have hids : (numberLog (init.run service iterations).sent).map Prod.fst =
        ((requestLog (init.run service iterations).sent).map Prod.fst).map ServiceModule.seqId := by
      simp [numberLog]
    rw [hids, answers_map]
    exact congrArg _ (requestLog_run service init iterations)
  generalize (numberLog (init.run service iterations).sent).map Prod.fst = seqIds at hlog hsorted ⊢
  have hiff : ExactlyOnce (answers id 0 seqIds) ↔
      (∀ x ∈ seqIds.head?, True) ∧ seqIds.IsChain Consecutive := by
    apply eachReceipt_iff
    · exact fun x _ => if_pos (Or.inl rfl)
    · exact fun a x h => nextExpected_of_consecutive h
    · intro x
      simp [reactionTo]
    · intro seen a x hseen hle
      rw [mem_concat_iff (fun _ _ => UInt32.le_antisymm) hseen hle]
      exact treated_iff_consecutive hle
    · exact hsorted
  rw [hlog, hiff]
  simp

/-- A request arrives. -/
def asked (now : Int) (seqId : UInt32) : Iteration :=
  { waiting now with message := some ⟨false, seqId, some (Vector.replicate paramSize 0)⟩ }

/-- Requests `3` and `4`, the first of them twice. -/
def repeatedRun : List Iteration := [admission 0, asked 1 3, asked 1 3, asked 2 4]

theorem exactlyOnce_iff_repeatedRun : ExactlyOnce (numberLog (init.run 0 repeatedRun).sent) :=
  (exactlyOnce_iff 0 repeatedRun (by decide +kernel)).mpr (by decide +kernel)

/-- Request `1` goes to other copies. -/
def skippedRun : List Iteration := [admission 0, asked 1 0, asked 2 2]

/-- **A number that is left out** makes the next request look like a duplicate. -/
theorem skipped_number_flagged :
    ¬ ∀ (service : ServiceType) (iterations : List Iteration),
      ((numberLog (init.run service iterations).sent).map Prod.fst).Pairwise (· ≤ ·) →
        ExactlyOnce (numberLog (init.run service iterations).sent) := by
  intro h
  have hlast := h 0 skippedRun (by decide +kernel) [(0, .answer)] 2 .duplicated []
    (by decide +kernel)
  exact absurd (hlast.2.mp rfl) (by decide)

/-! ## Across a restart of the broker -/

/-- The number of the last request executed. -/
def lastExecuted (sent : List ServerAct) : Option UInt32 :=
  (((requestLog sent).filter (·.2 = .answer)).getLast?).map (·.1.seqId)

/-- The request with the second number is executed after the one with the first, or is that
one. -/
def MayFollow (n next : ℕ) : Prop :=
  next = n ∨ UInt32.ofNat next = UInt32.ofNat n + 1 ∨ UInt32.ofNat n + 1 = 0

instance (n next : ℕ) : Decidable (MayFollow n next) := inferInstanceAs (Decidable (_ ∨ _))

theorem requestId_eq {iterations : List Iteration}
    (hrun : (init.run service iterations).result = .ok l) :
    l.server.requestId = (lastExecuted (init.run service iterations).sent).elim 0 (· + 1) := by
  have hids : ((requestLog (init.run service iterations).sent).map fun entry => entry.1.seqId) =
      ((requestLog (init.run service iterations).sent).map Prod.fst).map ServiceModule.seqId := by
    simp
  have hlog := requestLog_run service init iterations
  rw [requestId_run hrun, hids]
  change expectedAfter 0 _ = _
  change _ = answers ServiceModule.seqId 0 _ at hlog
  rw [expectedAfter_eq, ← hlog, lastExecuted]
  cases ((requestLog (init.run service iterations).sent).filter (·.2 = .answer)).getLast? <;> rfl

theorem nextExpected_of_mayFollow {n next : ℕ} (h : MayFollow n next) :
    nextExpected (UInt32.ofNat n + 1) (UInt32.ofNat next) = UInt32.ofNat next + 1 := by
  rcases h with rfl | hnext | hzero
  · unfold nextExpected
    split <;> rfl
  · exact if_pos (Or.inr hnext)
  · exact if_pos (Or.inl hzero)

/-- **Recovery after a restart of the broker.**  The copy has gone through `before` with the old
broker, and goes through `after` with a new one; of what the new one hands to its sockets the
copy receives some, in order.  Every request is executed at its first receipt if and only if
the first number happens to be the expected one, or none is expected, and none is left out
after it. -/
theorem executesFirst_iff {before after : List Iteration}
    (hold : (init.run service before).result = .ok l) {nmr : UInt8} {portRouter portReg : UInt16}
    {moments : List Moment} {taken : List (ℕ × ServiceModule)}
    (hnetwork : taken.Sublist
      ((Broker.init portRouter portReg : Broker nmr).forwarded service 0 moments))
    (hreceived : (requestLog (l.run service after).sent).map Prod.fst = taken.map Prod.snd) :
    ExecutesFirst
        ((taken.map Prod.fst).zip ((requestLog (l.run service after).sent).map Prod.snd)) ↔
      (∀ last ∈ lastExecuted (init.run service before).sent, ∀ n ∈ (taken.map Prod.fst).head?,
        last + 1 = 0 ∨ UInt32.ofNat n = last + 1) ∧ (taken.map Prod.fst).IsChain MayFollow := by
  have hstart : (Broker.init portRouter portReg : Broker nmr).db.counter service =
      UInt32.ofNat 0 := rfl
  obtain ⟨hnumbered, hsorted⟩ := Broker.forwarded_numbered moments hstart
  have hids : (taken.map Prod.snd).map ServiceModule.seqId =
      (taken.map Prod.fst).map UInt32.ofNat := by
    rw [List.map_map, List.map_map]
    apply List.map_congr_left
    intro entry hmem
    exact (hnumbered entry (hnetwork.subset hmem)).2.2
  have htaken : (taken.map Prod.fst).Pairwise (· ≤ ·) :=
    hsorted.sublist (hnetwork.map Prod.fst)
  have hlog : (taken.map Prod.fst).zip ((requestLog (l.run service after).sent).map Prod.snd) =
      answers UInt32.ofNat l.server.requestId (taken.map Prod.fst) := by
    rw [requestLog_run, hreceived]
    exact zip_answers hids
  generalize taken.map Prod.fst = numbers at hlog htaken ⊢
  have hiff : ExecutesFirst (answers UInt32.ofNat l.server.requestId numbers) ↔
      (∀ n ∈ numbers.head?, l.server.requestId = 0 ∨ UInt32.ofNat n = l.server.requestId) ∧
        numbers.IsChain MayFollow := by
    apply eachReceipt_iff
    · exact fun n h => if_pos h
    · exact fun n next h => nextExpected_of_mayFollow h
    · intro n
      have hnot : n ∉ ([] : List ℕ) := List.not_mem_nil
      rw [reactionTo_eq_answer, reactionTo_eq_duplicated]
      tauto
    · intro seen n next hseen hle
      rw [mem_concat_iff (fun _ _ => Nat.le_antisymm) hseen hle, reactionTo_eq_answer,
        reactionTo_eq_duplicated, MayFollow]
      tauto
    · exact htaken
  rw [hlog, hiff, requestId_eq hold]
  cases lastExecuted (init.run service before).sent <;> simp

/-- Two copies of service `0` register, and a client asks once. -/
def newBrokerRun : List Moment :=
  [⟨Broker.everyone, .registration ⟨"pippo", 0⟩ ⟨0, 0⟩⟩,
    ⟨Broker.everyone, .registration ⟨"pippo", 0⟩ ⟨0, 0⟩⟩,
    ⟨Broker.everyone, .request 7 ⟨0, Vector.replicate paramSize 0⟩ ⟨0, 0⟩ ⟨0, 0⟩⟩]

/-- The first request of the new broker. -/
def firstRequest : List (ℕ × ServiceModule) :=
  [(0, ⟨false, 0, some (Vector.replicate paramSize 0)⟩)]

theorem firstRequest_sublist : firstRequest.Sublist
    ((Broker.init 5559 5555 : Broker 2).forwarded 0 0 newBrokerRun) := by
  -- it is forwarded to both copies
  have hforwarded : (Broker.init 5559 5555 : Broker 2).forwarded 0 0 newBrokerRun =
      firstRequest ++ firstRequest := rfl
  rw [hforwarded]
  exact List.sublist_append_left ..

/-- The copy serves requests with these numbers and then loses its broker. -/
def servedRun (seqIds : List UInt32) : List Iteration :=
  admission 0 :: seqIds.map (asked 1) ++ [waiting 10, waiting 20, waiting 30]

/-- What is left of the copy. -/
def survivor (requestId : UInt32) : ServerLoop := ⟨⟨0, requestId⟩, false, 3, ⟨32, 500000000⟩, false⟩

/-- A copy that has served nothing executes the first request of the new broker. -/
theorem executesFirst_iff_idleCopy :
    ExecutesFirst ((firstRequest.map Prod.fst).zip
      ((requestLog ((survivor 0).run 0 [admission 31, asked 32 0]).sent).map Prod.snd)) :=
  have hold : (init.run 0 (servedRun [])).result = .ok (survivor 0) := by rfl
  have hnone : lastExecuted (init.run 0 (servedRun [])).sent = none := by decide +kernel
  (executesFirst_iff hold firstRequest_sublist rfl).mpr
    ⟨by simp [hnone], by decide +kernel⟩

/-- **A copy that has served one request flags the first request of the new broker.** -/
theorem first_request_flagged :
    ¬ ∀ (service : ServiceType) (before : List Iteration) (l : ServerLoop) (nmr : UInt8)
      (portRouter portReg : UInt16) (moments : List Moment) (taken : List (ℕ × ServiceModule))
      (after : List Iteration),
      (init.run service before).result = .ok l →
      taken.Sublist ((Broker.init portRouter portReg : Broker nmr).forwarded service 0 moments) →
      (requestLog (l.run service after).sent).map Prod.fst = taken.map Prod.snd →
      ExecutesFirst ((taken.map Prod.fst).zip
        ((requestLog (l.run service after).sent).map Prod.snd)) := by
  intro h
  have hfirst := h 0 (servedRun [0]) (survivor 1) 2 5559 5555 newBrokerRun firstRequest
    [admission 31, asked 32 0] (by rfl) firstRequest_sublist rfl [] 0 .duplicated []
    (by decide +kernel)
  exact absurd (hfirst.2 rfl) (by decide)

end ServerLoop

end ReliableService
