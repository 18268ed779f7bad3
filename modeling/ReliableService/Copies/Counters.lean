import ReliableService.Copies.Slots
import ReliableService.Handlers.Effects

/-!
# The copy counters against the live slots

`check_pong` subtracts one for every slot that reaches `LIVENESS`, so the counters stay
in range as long as they count at least the live slots.  Three things move the balance:

* a registration raises the counter and no slot;
* a loss lowers both;
* a pong on a slot that was written off revives the slot and raises no counter.

The last one is where the code goes wrong: a copy that was declared unreliable and
pongs again can be lost a second time, and the counter pays twice.  `Orderly` is the
condition that every such revival is covered by a registration (and that heartbeating
starts when the service is complete, which `step` guarantees).  `bounded_of_orderly`
is the bound along any orderly run, and `counter_wraps` a run with a flapping copy.  The
bound is one on the messages too: a broker sends a request or a ping to as many copies as
the record counts.
-/

namespace ReliableService.ServiceRecord

variable {nmr : UInt8}

/-- The counters agree, do not exceed the redundancy, cover what the next `check_pong`
subtracts, and leave room for a replacement of every copy it gives up.  A broker whose record
of the service has this copy side sends no more than `nmr` copies of a message. -/
structure Bounded (record : ServiceRecord nmr) : Prop where
  counters_eq : record.numCopiesRegistered = record.numCopiesReliable
  reliable_le : record.numCopiesReliable ≤ nmr
  no_wrap : record.unreliableUnits.card ≤ record.numCopiesReliable.toNat
  rejoin : record.unreliableUnits.Nonempty → record.checkPong.register ≠ none
  requests_le : ∀ (b : Broker nmr) connected c request now later found,
    b.db.servicesDb request.service = some found →
      found.clearRequests = record.clearRequests →
        (b.getRequest connected c request now later).sent.length ≤ nmr.toNat
  pings_le : ∀ (b : Broker nmr) (i : UInt8) service counted found,
    b.availableServices[i.toNat]? = some counted → b.db.servicesDb counted = some found →
      found.clearRequests = record.clearRequests →
        (b.pingServer i service).sent.length ≤ nmr.toNat

/-- What an orderly run asks of an operation on `record`, after `registrations`
registrations of the service. -/
def StepOk (record : ServiceRecord nmr) (registrations : ℕ) : CopyEvent nmr → Prop
  | .registration => True
  | .pong idCopy => idCopy ∉ record.live → record.live.card < record.numCopiesRegistered.toNat
  | .check => nmr.toNat ≤ registrations

instance (record : ServiceRecord nmr) (registrations : ℕ) :
    ∀ event, Decidable (StepOk record registrations event)
  | .registration => inferInstanceAs (Decidable True)
  | .pong idCopy => inferInstanceAs (Decidable (idCopy ∉ record.live → _ < _))
  | .check => inferInstanceAs (Decidable (_ ≤ _))

/-- Every operation of the run is orderly. -/
def Orderly (record : ServiceRecord nmr) (registrations : ℕ) : List (CopyEvent nmr) → Prop
  | [] => True
  | event :: events =>
      StepOk record registrations event ∧
        Orderly (record.afterEvent event)
          (if event = .registration then registrations + 1 else registrations) events

instance decidableOrderly (record : ServiceRecord nmr) (registrations : ℕ) :
    ∀ events, Decidable (Orderly record registrations events)
  | [] => inferInstanceAs (Decidable True)
  | event :: events =>
      let := decidableOrderly (record.afterEvent event)
        (if event = .registration then registrations + 1 else registrations) events
      inferInstanceAs (Decidable (_ ∧ _))

/-- The invariant: the counters are within the redundancy, and either no slot has lost
anything yet and the counter counts registrations, or it covers the live slots. -/
structure Covered (record : ServiceRecord nmr) (registrations : ℕ) : Prop where
  counters_eq : record.numCopiesRegistered = record.numCopiesReliable
  reliable_le : record.numCopiesReliable ≤ nmr
  covers : record.live.card ≤ record.numCopiesReliable.toNat ∨
    (∀ j : Fin nmr.toNat, record.lostOf j = -1) ∧
      record.numCopiesReliable.toNat = min nmr.toNat registrations

theorem covered_init (owner : String) (dealerSocket dealerSktIndex : UInt16) (hnmr : 1 ≤ nmr) :
    Covered (init owner dealerSocket dealerSktIndex : ServiceRecord nmr) 1 where
  counters_eq := rfl
  reliable_le := hnmr
  covers := by
    have hle : 1 ≤ nmr.toNat := UInt8.le_iff_toNat_le.mp hnmr
    refine Or.inr ⟨fun j => lostOf_init .., ?_⟩
    show 1 = min nmr.toNat 1
    omega

theorem Covered.bounded {record : ServiceRecord nmr} {registrations : ℕ}
    (h : Covered record registrations) : Bounded record := by
  have hwrap : record.unreliableUnits.card ≤ record.numCopiesReliable.toNat := by
    rcases h.covers with hcovers | ⟨hlost, -⟩
    · calc record.unreliableUnits.card
          ≤ record.live.card := Finset.card_le_card record.unreliableUnits_subset_live
        _ ≤ record.numCopiesReliable.toNat := hcovers
    · -- nothing has been lost yet, so nothing reaches `LIVENESS`
      rw [Finset.card_eq_zero.mpr]
      · exact Nat.zero_le _
      apply Finset.eq_empty_of_forall_notMem
      intro j hj
      have := (mem_unreliableUnits.mp hj).2
      rw [hlost j] at this
      exact absurd this (by decide)
  have hnmr := UInt8.le_iff_toNat_le.mp h.reliable_le
  refine ⟨h.counters_eq, h.reliable_le, hwrap, ?_, ?_, ?_⟩
  · intro hnonempty hnone
    have hle := UInt8.le_iff_toNat_le.mp (register_eq_none.mp hnone)
    have hsub := toNat_sub_unreliableUnits hwrap
    have hpos := hnonempty.card_pos
    simp only [checkPong, h.counters_eq] at hle
    omega
  · intro b connected c request now later found hfound hsame
    have hcopies : found.numCopiesReliable = record.numCopiesReliable :=
      congrArg (·.numCopiesReliable) hsame
    exact (Broker.length_getRequest_le hfound connected c now later).trans (hcopies ▸ hnmr)
  · intro b i service counted found hcounted hfound hsame
    have hcopies : found.numCopiesReliable = record.numCopiesReliable :=
      congrArg (·.numCopiesReliable) hsame
    exact (Broker.length_pingServer_le hcounted hfound).trans (hcopies ▸ hnmr)

theorem Covered.registration {record : ServiceRecord nmr} {registrations : ℕ}
    (h : Covered record registrations) :
    Covered (record.afterEvent .registration) (registrations + 1) := by
  have hle := UInt8.le_iff_toNat_le.mp h.reliable_le
  cases hregister : record.register with
  | none =>
      have hfull := UInt8.le_iff_toNat_le.mp (register_eq_none.mp hregister)
      rw [h.counters_eq] at hfull
      refine ⟨?_, ?_, ?_⟩ <;> simp only [ServiceRecord.afterEvent, hregister, Option.getD_none]
      · exact h.counters_eq
      · exact h.reliable_le
      · apply h.covers.imp_right
        rintro ⟨hlost, hcount⟩
        exact ⟨hlost, by omega⟩
  | some record' =>
      obtain ⟨hlt, rfl⟩ := register_eq_some.mp hregister
      have hsucc : (record.numCopiesReliable + 1).toNat = record.numCopiesReliable.toNat + 1 :=
        toNat_succ_of_lt (h.counters_eq ▸ hlt)
      have hlt' := UInt8.lt_iff_toNat_lt.mp hlt
      rw [h.counters_eq] at hlt'
      refine ⟨?_, ?_, ?_⟩ <;> simp only [ServiceRecord.afterEvent, hregister, Option.getD_some]
      · rw [h.counters_eq]
      · rw [UInt8.le_iff_toNat_le, hsucc]
        omega
      · rw [hsucc]
        rcases h.covers with hcovers | ⟨hlost, hcount⟩
        · exact Or.inl (hcovers.trans (Nat.le_succ _))
        · exact Or.inr ⟨hlost, by omega⟩

/-- A pong that revives a slot needs a count that is not taken. -/
theorem Covered.pong {record : ServiceRecord nmr} {registrations : ℕ}
    (h : Covered record registrations) {idCopy : Fin nmr.toNat}
    (hok : StepOk record registrations (.pong idCopy)) :
    Covered (record.afterEvent (.pong idCopy)) registrations := by
  refine ⟨h.counters_eq, h.reliable_le, h.covers.imp_left ?_⟩
  intro hcovers
  simp only [ServiceRecord.afterEvent, registerPong_numCopiesReliable, live_registerPong]
  by_cases hlive : idCopy ∈ record.live
  · rwa [Finset.insert_eq_of_mem hlive]
  · calc (insert idCopy record.live).card
        = record.live.card + 1 := Finset.card_insert_of_notMem hlive
      _ ≤ record.numCopiesRegistered.toNat := hok hlive
      _ = record.numCopiesReliable.toNat := by rw [h.counters_eq]

/-- A check takes as many live slots as it subtracts. -/
theorem Covered.check {record : ServiceRecord nmr} {registrations : ℕ}
    (h : Covered record registrations) (hok : StepOk record registrations .check) :
    Covered (record.afterEvent .check) registrations := by
  have hle := UInt8.le_iff_toNat_le.mp h.reliable_le
  have hcovers : record.live.card ≤ record.numCopiesReliable.toNat := by
    rcases h.covers with hcovers | ⟨-, hcount⟩
    · exact hcovers
    · have hcomplete : nmr.toNat ≤ registrations := hok
      calc record.live.card ≤ nmr.toNat := record.card_live_le
        _ = record.numCopiesReliable.toNat := by omega
  have hsub := toNat_sub_unreliableUnits h.bounded.no_wrap
  have hlive := record.card_live_checkPong
  refine ⟨?_, ?_, Or.inl ?_⟩ <;> simp only [ServiceRecord.afterEvent]
  · simp [checkPong, h.counters_eq]
  · rw [UInt8.le_iff_toNat_le]
    simp only [checkPong]
    omega
  · show _ ≤ (record.numCopiesReliable - UInt8.ofNat record.unreliableUnits.card).toNat
    omega

/-- **One orderly operation keeps the counters covered.** -/
theorem Covered.afterEvent {record : ServiceRecord nmr} {registrations : ℕ}
    (h : Covered record registrations) {event : CopyEvent nmr}
    (hok : StepOk record registrations event) :
    Covered (record.afterEvent event)
      (if event = .registration then registrations + 1 else registrations) := by
  cases event with
  | registration =>
      rw [if_pos rfl]
      exact h.registration
  | pong idCopy =>
      rw [if_neg (by simp)]
      exact h.pong hok
  | check =>
      rw [if_neg (by simp)]
      exact h.check hok

/-- **Along an orderly run the counters stay covered.** -/
theorem Covered.bounded_afterEvents {record : ServiceRecord nmr} {registrations : ℕ}
    (h : Covered record registrations) {first second : List (CopyEvent nmr)}
    (horderly : Orderly record registrations (first ++ second)) :
    Bounded (record.afterEvents first) := by
  induction first generalizing record registrations with
  | nil => exact h.bounded
  | cons event first ih => exact ih (h.afterEvent horderly.1) horderly.2

/-! ## The bound, and the defect -/

/-- **The copy counters never wrap in an orderly run**, started by the first
registration of the service: this holds in every state on the way. -/
theorem bounded_of_orderly (owner : String) (dealerSocket dealerSktIndex : UInt16)
    (hnmr : 1 ≤ nmr) (first second : List (CopyEvent nmr))
    (horderly : Orderly (init owner dealerSocket dealerSktIndex) 1 (first ++ second)) :
    Bounded ((init owner dealerSocket dealerSktIndex).afterEvents first) :=
  (covered_init owner dealerSocket dealerSktIndex hnmr).bounded_afterEvents horderly

/-- Three copies; the last one dies, is replaced, and the replacement pongs. -/
def replacedCopyRun : List (CopyEvent 3) :=
  let healthy := [.pong ⟨0, by decide⟩, .pong ⟨1, by decide⟩, .check]
  [.registration, .registration, .check] ++ healthy ++ healthy ++ healthy ++
    [.registration, .pong ⟨2, by decide⟩, .pong ⟨0, by decide⟩, .check]

theorem bounded_of_orderly_replacedCopyRun :
    Bounded ((init "pippo" dealerStartPort 0 : ServiceRecord 3).afterEvents replacedCopyRun) :=
  bounded_of_orderly "pippo" dealerStartPort 0 (by decide) replacedCopyRun [] (by decide +kernel)

/-- Two copies, silent until they are written off; a late pong of one of them, and silence
again. -/
def flappingCopyRun : List (CopyEvent 2) :=
  [.registration, .check, .check, .check, .check, .pong ⟨0, Nat.zero_lt_two⟩,
    .check, .check, .check, .check]

/-- **The counter wraps**: after a copy was lost twice it counts 255 copies of two. -/
theorem counter_wraps :
    ¬ ∀ (nmr : UInt8), 1 ≤ nmr → ∀ (owner : String) (dealerSocket dealerSktIndex : UInt16)
      (first : List (CopyEvent nmr)),
      Bounded ((init owner dealerSocket dealerSktIndex : ServiceRecord nmr).afterEvents first) := by
  intro h
  have hle := (h 2 (by decide) "pippo" dealerStartPort 0 flappingCopyRun).reliable_le
  exact absurd hle (by decide +kernel)

end ReliableService.ServiceRecord
