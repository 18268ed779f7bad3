import ReliableService.Arguments.RoundTrip
import ReliableService.Model.Services
import ReliableService.Network.Integrity

/-!
# From a call of a client to its result

`request_service` returns `true` with a value, and what stands behind it is the whole framework:
the arguments are written into a field, forwarded to copies that read them back, computed on by
those of them that work, voted on, and sent back.  `returned_value` says that the value is the one
the service is for, a number of `ℤ`.

The parts are known: arguments arrive (`Arguments.RoundTrip`), and in a timely run with few faulty
copies what the broker answers is what the copies' bodies compute (`Invariant`).  What is new is
what the bodies are (`Serves`), and that the caller gets the response to its own request.
-/

namespace ReliableService

/-! ## What the services are for -/

/-- The function on integers behind a service.  `SUM` has none in this program. -/
def meaning (service : ServiceType) : Option (ℤ → ℤ) :=
  if service = 0 then some fun x => x + 1
  else if service = 1 then some fun x => x - 1
  else if service = 2 then some fun x => x * 2
  else none

/-- **A body** computes what its service is for, where that is an `int32_t`. -/
theorem body_eq_some_iff {service : ServiceType} {x v : Int32} :
    ((getServiceBody service).toOption.join.bind fun body => body x) = some v ↔
      ∃ f, meaning service = some f ∧ v.toInt = f x.toInt := by
  unfold getServiceBody meaning
  split_ifs
  · exact int32_eq_some_iff.trans (by simp)
  · exact int32_eq_some_iff.trans (by simp)
  · exact int32_eq_some_iff.trans (by simp)
  · simp [Except.toOption]
  · simp [Except.toOption]

/-- A copy that gets a serialized argument replies with the value for it. -/
theorem replyValue_of_serialized {service : ServiceType} {x v : Int32} {args : List Int32}
    {scratch parameters : Parameters}
    (hcopied : strcpy 0 scratch (serialize [] (x :: args)) = some parameters) :
    replyValue service parameters = some v ↔ ∃ f, meaning service = some f ∧
      v.toInt = f x.toInt := by
  have hthread : createThread parameters = .ok (serialize [] (x :: args)) := by
    rw [createThread, stringOf, cString_of_strcpy (nul_notMem_serialize _) hcopied]
  have hread : task id (serialize [] (x :: args)) = some x := task_serialize id x args
  rw [← body_eq_some_iff]
  unfold replyValue
  rw [hthread]
  simp only [Except.toOption, Option.bind_eq_bind, Option.bind_some, hread]

/-! ## What the caller gets -/

/-- A call that returns `true` has sent its request and returns the result of the response. -/
theorem requestService_true {service : ServiceType} {args : List Int32} {scratch : Parameters}
    {response : ResponseModule} {result value : Option Int32}
    (h : (requestService service args scratch response result).result = .ok (true, value)) :
    response.serviceStatus = .serviceAvailable ∧ value = response.result ∧
      ∃ parameters, strcpy 0 scratch (serialize [] args) = some parameters ∧
        (requestService service args scratch response result).sent = [⟨service, parameters⟩] := by
  by_cases hlong : paramSize ≤ (serialize [] args).length
  · rw [requestService_of_long hlong] at h
    cases h
  · have hshort : ∃ parameters, strcpy 0 scratch (serialize [] args) = some parameters ∧
        (requestService service args scratch response result).sent = [⟨service, parameters⟩] ∧ _ :=
      requestService_of_short (not_le.mp hlong)
    obtain ⟨parameters, hcopied, hsent, -⟩ := hshort
    refine ⟨?_, ?_, parameters, hcopied, hsent⟩
    all_goals
      unfold requestService at h
      rw [hcopied] at h
      cases hstatus : response.serviceStatus with
      | serviceNotReliable =>
          simp only [hstatus] at h
          cases h
      | serviceNotAvailable =>
          simp only [hstatus] at h
          cases h
      | serviceAvailable =>
          simp only [hstatus] at h
          cases h
          rfl

namespace System

variable {nmr : UInt8} {κ : Type} [DecidableEq κ] {d : Deployment κ}

/-- The copies that are not faulty run the bodies of `service.cpp`. -/
def Serves (d : Deployment κ) : Prop :=
  ∀ service parameters v, replyValue service parameters = some v → d.body service parameters = v

/-- **What a client gets is the result.**  In every timely run with at most `(nmr - 1) / 2` faulty
copies of each service, a call of `request_service` that returns `true` returns the value of the
service for its first argument, provided that it is an `int32_t`. -/
theorem returned_value (hmasked : Masked nmr d) (hserves : Serves d)
    (portRouter portReg : UInt16) (actions : List (Action κ))
    (htimely : Machine.Along (System.step d) Timely (init portRouter portReg : System nmr κ)
      actions) {s : System nmr κ}
    (hrun : Machine.run (System.step d) (init portRouter portReg) actions = some s)
    {n : ℕ} {ask : Ask} (hask : s.asks[n]? = some ask) {response : ResponseModule}
    (hresponse : (n, response) ∈ s.session.ledger.responses) {service : ServiceType} {x : Int32}
    {args : List Int32} {scratch : Parameters} {result value : Option Int32}
    (hsent : (requestService service (x :: args) scratch response result).sent = [ask.request])
    (hreturned : (requestService service (x :: args) scratch response result).result =
      .ok (true, value)) {f : ℤ → ℤ} (hf : meaning service = some f)
    (hfits : Int32.minValue.toInt ≤ f x.toInt ∧ f x.toInt ≤ Int32.maxValue.toInt) :
    ∃ v, value = some v ∧ v.toInt = f x.toInt := by
  have hinvariant : Invariant d s := Machine.run_invariant (P := Invariant d)
    (fun _ _ _ h htimely hstep => h.step hmasked htimely hstep)
    (invariant_init d portRouter portReg) htimely hrun
  obtain ⟨havailable, rfl, parameters, hcopied, hsent'⟩ := requestService_true hreturned
  -- the request the client sent is the one that was answered
  have hrequest : ask.request = ⟨service, parameters⟩ :=
    List.singleton_inj.mp (hsent.symm.trans hsent')
  obtain ⟨ask', hask', hresult⟩ := hinvariant.inOrder.1.good_of_mem _ hresponse havailable
  obtain rfl : ask = ask' := Option.some.inj (hask.symm.trans hask')
  rw [hrequest] at hresult
  -- and a copy that works replies with the value
  obtain ⟨v, hv⟩ : ∃ v, int32 (f x.toInt) = some v := ⟨_, if_pos hfits⟩
  have hvalue : v.toInt = f x.toInt := int32_eq_some_iff.mp hv
  have hreply : replyValue service parameters = some v :=
    (replyValue_of_serialized hcopied).mpr ⟨f, hf, hvalue⟩
  exact ⟨v, by rw [hresult, hserves service parameters v hreply], hvalue⟩

/-- Three copies of `increment`, of which the last is faulty. -/
def increments : Deployment (Fin 3) where
  service := fun _ => 0
  id := fun k => UInt8.ofNat k.val
  faulty := {copy2}
  body := fun service parameters => (replyValue service parameters).getD 0

/-- `41`, a separator and the terminator, in a field of zeros. -/
def fortyOne : Parameters := Vector.ofFn fun i => ([52, 49, 32] : List UInt8)[i.val]?.getD 0

/-- The faulty copy is the first to reply. -/
def incrementRun : List (Action (Fin 3)) :=
  deployed ++ [.request 7 ⟨0, fortyOne⟩ ⟨0, 0⟩ ⟨0, 0⟩] ++ working copy2 ++ working copy0 ++
    working copy1

theorem returned_value_incrementRun :
    ∃ s : System 3 (Fin 3), Machine.run (System.step increments) (init 5559 5555) incrementRun =
      some s ∧ ∃ response, (0, response) ∈ s.session.ledger.responses ∧
        ∀ value, (requestService 0 [41] (Vector.replicate paramSize 0) response none).result =
          .ok (true, value) → ∃ v, value = some v ∧ v.toInt = 42 := by
  have hmasked : Masked 3 increments := fun service =>
    (Finset.card_filter_le _ _).trans (by decide)
  have hserves : Serves increments := by
    intro service parameters v hv
    show (replyValue service parameters).getD 0 = v
    rw [hv, Option.getD_some]
  have hstate : (Machine.run (System.step increments) (init 5559 5555 : System 3 (Fin 3))
      incrementRun).map (fun s => (s.asks, s.session.ledger.responses)) =
      some ([⟨7, ⟨0, fortyOne⟩⟩], [(0, ⟨.serviceAvailable, some 42⟩)]) := by decide +kernel
  obtain ⟨s, hrun, hs⟩ := Option.map_eq_some_iff.mp hstate
  rw [Prod.mk.injEq] at hs
  refine ⟨s, hrun, _, hs.2 ▸ List.mem_singleton_self _, ?_⟩
  intro value hvalue
  have hask : s.asks[0]? = some ⟨7, ⟨0, fortyOne⟩⟩ := by rw [hs.1]; rfl
  exact returned_value hmasked hserves 5559 5555 incrementRun (by decide +kernel) hrun hask
    (hs.2 ▸ List.mem_singleton_self _) (by decide +kernel) hvalue rfl (by decide)

end System

end ReliableService
