import Mathlib.Data.List.Chain
import ReliableService.Network.Queues
import ReliableService.Servers.Iterations

/-!
# What a copy does about the requests it receives

Of everything the loop does, only a request of the broker touches `request_id`, so the log of
the requests is a function of the numbers received (`requestLog_run`): the loop runs
`nextExpected` over them and executes what `reactionTo` says.

`EachReceipt` states a property of every receipt in terms of the receipts before it, and
`eachReceipt_iff` decides such properties for requests that arrive in order: the copy then
keeps up exactly as long as each request may follow the one before it.
-/

namespace ReliableService

/-! ## The counter -/

/-- `request_id` after a request with this number. -/
def nextExpected (expected seqId : UInt32) : UInt32 :=
  if expected = 0 ∨ seqId = expected then seqId + 1 else expected

/-- What is done about a request with this number. -/
def reactionTo (expected seqId : UInt32) : Reaction :=
  if expected = 0 ∨ seqId = expected then .answer else .duplicated

theorem reactionTo_eq_answer {expected seqId : UInt32} :
    reactionTo expected seqId = .answer ↔ expected = 0 ∨ seqId = expected := by
  unfold reactionTo
  split <;> simp [*]

theorem reactionTo_eq_duplicated {expected seqId : UInt32} :
    reactionTo expected seqId = .duplicated ↔ ¬ (expected = 0 ∨ seqId = expected) := by
  unfold reactionTo
  split <;> simp [*]

theorem Server.receive_request (server : Server) {sm : ServiceModule} (h : sm.heartbeat = false) :
    (server.receive sm).1.requestId = nextExpected server.requestId sm.seqId ∧
      (server.receive sm).2 = reactionTo server.requestId sm.seqId := by
  unfold receive nextExpected reactionTo
  rw [if_neg (by simp [h])]
  by_cases hzero : server.requestId = 0
  · simp [hzero]
  · by_cases hseq : sm.seqId = server.requestId <;> simp [hzero, hseq]

/-! ## Logs -/

section Logs

variable {α : Type*} {log : List (α × Reaction)} {Q : List α → α → Reaction → Prop}
  {number : α → UInt32} {expected : UInt32} {xs : List α} {x : α} {reaction : Reaction}

/-- Every receipt is as it should be after the receipts before it. -/
def EachReceipt (Q : List α → α → Reaction → Prop) (log : List (α × Reaction)) : Prop :=
  ∀ before x reaction after, log = before ++ (x, reaction) :: after →
    Q (before.map Prod.fst) x reaction

theorem eachReceipt_nil : EachReceipt Q [] := by
  intro before x reaction after heq
  exact absurd heq.symm (by simp)

theorem eachReceipt_append : EachReceipt Q (log ++ [(x, reaction)]) ↔
    EachReceipt Q log ∧ Q (log.map Prod.fst) x reaction := by
  constructor
  · intro h
    refine ⟨?_, h log x reaction [] rfl⟩
    rintro before y reaction' after rfl
    exact h before y reaction' (after ++ [(x, reaction)]) (by simp)
  · rintro ⟨hlog, hlast⟩ before y reaction' after heq
    rcases List.concat_eq_append_cons heq with ⟨rfl, hpair, -⟩ | ⟨rest, -, hold⟩
    · obtain ⟨rfl, rfl⟩ := Prod.mk.inj hpair
      exact hlast
    · exact hlog before y reaction' rest hold

/-- `request_id` after requests with these numbers. -/
def expectedAfter (expected : UInt32) (seqIds : List UInt32) : UInt32 :=
  seqIds.foldl nextExpected expected

/-- The log of the receipts of `xs`, whose numbers are given by `number`. -/
def answers (number : α → UInt32) (expected : UInt32) : List α → List (α × Reaction)
  | [] => []
  | x :: xs => (x, reactionTo expected (number x)) ::
      answers number (nextExpected expected (number x)) xs

theorem answers_append (number : α → UInt32) (expected : UInt32) (xs : List α) (x : α) :
    answers number expected (xs ++ [x]) = answers number expected xs ++
      [(x, reactionTo (expectedAfter expected (xs.map number)) (number x))] := by
  induction xs generalizing expected with
  | nil => rfl
  | cons y xs ih => exact congrArg _ (ih _)

@[simp] theorem map_fst_answers (number : α → UInt32) (expected : UInt32) (xs : List α) :
    (answers number expected xs).map Prod.fst = xs := by
  induction xs generalizing expected with
  | nil => rfl
  | cons x xs ih => exact congrArg _ (ih _)

theorem answers_map (number : α → UInt32) (expected : UInt32) (xs : List α) :
    answers id expected (xs.map number) =
      (answers number expected xs).map fun entry => (number entry.1, entry.2) := by
  induction xs generalizing expected with
  | nil => rfl
  | cons x xs ih => exact congrArg _ (ih _)

/-- The reactions depend on the numbers only. -/
theorem zip_answers {β : Type*} {number' : β → UInt32} {ys : List β}
    (h : ys.map number' = xs.map number) :
    xs.zip ((answers number' expected ys).map Prod.snd) = answers number expected xs := by
  have hreactions : (answers number' expected ys).map Prod.snd =
      (answers number expected xs).map Prod.snd := by
    have hys := congrArg (List.map Prod.snd) (answers_map number' expected ys)
    have hxs := congrArg (List.map Prod.snd) (answers_map number expected xs)
    rw [List.map_map] at hys hxs
    rw [h] at hys
    exact hys.symm.trans hxs
  calc xs.zip ((answers number' expected ys).map Prod.snd)
      = ((answers number expected xs).map Prod.fst).zip
          ((answers number expected xs).map Prod.snd) := by rw [hreactions, map_fst_answers]
    _ = answers number expected xs := (List.zip_of_prod rfl rfl).symm

/-- What is expected is the number after the last request that was executed. -/
theorem expectedAfter_eq (number : α → UInt32) (xs : List α) :
    expectedAfter 0 (xs.map number) =
      ((answers number 0 xs).filter (·.2 = .answer)).getLast?.elim 0 fun entry =>
        number entry.1 + 1 := by
  induction xs using List.reverseRecOn with
  | nil => rfl
  | append_singleton xs x ih =>
      rw [answers_append, List.filter_append, expectedAfter, List.map_append, List.foldl_append]
      change nextExpected (expectedAfter 0 (xs.map number)) (number x) = _
      by_cases htaken : expectedAfter 0 (xs.map number) = 0 ∨
          number x = expectedAfter 0 (xs.map number)
      · rw [nextExpected, if_pos htaken, reactionTo, if_pos htaken]
        simp
      · rw [nextExpected, if_neg htaken, reactionTo, if_neg htaken, ih]
        simp

/-! ## Requests in order -/

section Order

variable {S : α → Prop} {R : α → α → Prop}
  (hstart : ∀ x, S x → nextExpected expected (number x) = number x + 1)
  (hnext : ∀ a x, R a x → nextExpected (number a + 1) (number x) = number x + 1)

include hstart hnext

/-- While each request may follow the one before it, the copy expects the next number. -/
theorem expectedAfter_of_isChain (hhead : ∀ x ∈ xs.head?, S x) (hchain : xs.IsChain R) :
    ∀ a ∈ xs.getLast?, expectedAfter expected (xs.map number) = number a + 1 := by
  induction xs using List.reverseRecOn with
  | nil => simp
  | append_singleton seen x ih =>
      intro a ha
      obtain rfl : x = a := by simpa using ha
      rw [expectedAfter, List.map_append, List.foldl_append]
      rcases List.eq_nil_or_concat seen with rfl | ⟨rest, last, rfl⟩
      · exact hstart x (hhead x rfl)
      · rw [List.concat_eq_append] at *
        obtain ⟨hrest, -, hlast⟩ := List.isChain_append.mp hchain
        have hexpected := ih (fun y hy => hhead y (by
          rw [List.head?_append_of_ne_nil _ (by simp)]
          exact hy)) hrest last (by simp)
        rw [expectedAfter] at hexpected
        rw [hexpected]
        exact hnext last x (hlast last (by simp) x rfl)

/-- **Requests that arrive in order.**  `S` says of a request that it may be the first one,
and `R` that it may follow another one, as far as the property `Q` goes. -/
theorem eachReceipt_iff [LE α]
    (hfirst : ∀ x, Q [] x (reactionTo expected (number x)) ↔ S x)
    (hother : ∀ seen a x, (∀ y ∈ seen, y ≤ a) → a ≤ x →
      (Q (seen ++ [a]) x (reactionTo (number a + 1) (number x)) ↔ R a x))
    (hsorted : xs.Pairwise (· ≤ ·)) :
    EachReceipt Q (answers number expected xs) ↔ (∀ x ∈ xs.head?, S x) ∧ xs.IsChain R := by
  induction xs using List.reverseRecOn with
  | nil => simp [answers, eachReceipt_nil]
  | append_singleton seen x ih =>
      obtain ⟨hseen, -, hle⟩ := List.pairwise_append.mp hsorted
      rw [answers_append, eachReceipt_append, map_fst_answers, ih hseen]
      rcases List.eq_nil_or_concat seen with rfl | ⟨rest, last, rfl⟩
      · have := hfirst x
        simpa [expectedAfter] using this
      · rw [List.concat_eq_append] at *
        have hhead : (rest ++ [last] ++ [x]).head? = (rest ++ [last]).head? :=
          List.head?_append_of_ne_nil _ (by simp)
        have hrest : ∀ y ∈ rest, y ≤ last := fun y hy =>
          (List.pairwise_append.mp hseen).2.2 y hy last (by simp)
        have hlast : last ≤ x := hle last (by simp) x (by simp)
        have hchains : (rest ++ [last] ++ [x]).IsChain R ↔ (rest ++ [last]).IsChain R ∧
            [x].IsChain R ∧ ∀ y ∈ (rest ++ [last]).getLast?, ∀ z ∈ [x].head?, R y z :=
          List.isChain_append
        rw [hhead, hchains, and_assoc]
        refine and_congr_right fun hstarts => and_congr_right fun hchain => ?_
        rw [expectedAfter_of_isChain hstart hnext hstarts hchain last (by simp),
          hother rest last x hrest hlast]
        simp

end Order

end Logs

/-! ## The log of the loop -/

/-- A request of the broker, and what was done about it. -/
def ServerAct.request? : ServerAct → Option (ServiceModule × Reaction)
  | .react sm reaction => if sm.heartbeat then none else some (sm, reaction)
  | _ => none

namespace ServerLoop

variable {service : ServiceType} {l l' : ServerLoop} {sent : List ServerAct}

/-- The requests a copy has received. -/
def requestLog (sent : List ServerAct) : List (ServiceModule × Reaction) :=
  sent.filterMap ServerAct.request?

/-- The log is what the numbers make of it, and so is the number expected next. -/
def Logged (expected : UInt32) (l : ServerLoop) (sent : List ServerAct) : Prop :=
  requestLog sent = answers ServiceModule.seqId expected ((requestLog sent).map Prod.fst) ∧
    l.server.requestId =
      expectedAfter expected ((requestLog sent).map fun entry => entry.1.seqId)

theorem Logged.acts {expected : UInt32} (h : Logged expected l sent) {act : ServerAct}
    (hacts : Acts service l act l') : Logged expected l' (sent ++ [act]) := by
  have hskip : act.request? = none → l'.server.requestId = l.server.requestId →
      Logged expected l' (sent ++ [act]) := by
    intro hnone hsame
    have hlog : requestLog (sent ++ [act]) = requestLog sent := by
      rw [requestLog, List.filterMap_append, List.filterMap_cons_none hnone, List.filterMap_nil,
        List.append_nil]
      rfl
    rw [Logged, hlog, hsame]
    exact h
  cases hacts with
  | react sm now hok =>
      by_cases hping : sm.heartbeat = true
      · apply hskip
        · simp [ServerAct.request?, hping]
        · rcases l.server.receive_cases sm with ⟨-, -, hid⟩ | ⟨hno, -⟩ | ⟨hno, -⟩
          · exact hid
          · exact absurd hping (by simp [hno])
          · exact absurd hping (by simp [hno])
      · rw [Bool.not_eq_true] at hping
        obtain ⟨hid, hreaction⟩ := l.server.receive_request hping
        have hlog : requestLog (sent ++ [.react sm (l.server.receive sm).2]) =
            requestLog sent ++ [(sm, reactionTo l.server.requestId sm.seqId)] := by
          simp [requestLog, ServerAct.request?, hping, hreaction]
        have hids : ((requestLog sent).map Prod.fst).map ServiceModule.seqId =
            (requestLog sent).map fun entry => entry.1.seqId := by simp
        refine ⟨?_, ?_⟩
        · rw [hlog, List.map_append, List.map_singleton, answers_append, ← h.1, hids, ← h.2]
        · show (l.server.receive sm).1.requestId = _
          rw [hid, hlog, List.map_append, expectedAfter, List.foldl_append, h.2]
          rfl
  | pongHealthChecker => exact hskip rfl rfl
  | register hok hsend => exact hskip rfl rfl
  | registrationOk port now hok hsend hport => exact hskip rfl rfl
  | brokerPingTimeout now hok => exact hskip rfl rfl
  | brokerDead hok hloss => exact hskip rfl rfl

theorem ends_run_logged (service : ServiceType) (l : ServerLoop) (iterations : List Iteration) :
    (l.run service iterations).Ends [] (Logged l.server.requestId)
      (Ended (Logged l.server.requestId)) :=
  ends_run (fun _ _ _ _ hacts h => h.acts hacts) iterations ⟨rfl, rfl⟩

/-- **The log of a run** is what the numbers of its requests make of it. -/
theorem requestLog_run (service : ServiceType) (l : ServerLoop) (iterations : List Iteration) :
    requestLog (l.run service iterations).sent = answers ServiceModule.seqId l.server.requestId
      ((requestLog (l.run service iterations).sent).map Prod.fst) := by
  have hends := ends_run_logged service l iterations
  cases hresult : (l.run service iterations).result with
  | error fault =>
      obtain ⟨l', h⟩ := (Outcome.ends_of_error hresult).mp hends
      exact h.1
  | ok l' => exact ((Outcome.ends_of_ok hresult).mp hends).1

theorem requestId_run {iterations : List Iteration}
    (hrun : (l.run service iterations).result = .ok l') :
    l'.server.requestId = expectedAfter l.server.requestId
      ((requestLog (l.run service iterations).sent).map fun entry => entry.1.seqId) :=
  ((Outcome.ends_of_ok hrun).mp (ends_run_logged service l iterations)).2

end ServerLoop

end ReliableService
