import ReliableService.Model.ServiceDatabase

/-!
# The slots of a service record

Three operations touch the copy counters and the per-copy slots of a record:
`push_registration`, `register_pong` and `check_pong`.  A `CopyEvent` is one of them,
and `afterEvents` is any sequence of them.

A slot is *live* while its copy is not written off, or will come back at the next
`check_pong` because a pong is waiting.  What `check_pong` does to the slots is said
once: `live_checkPong`, it takes exactly `unreliableUnits` out of the live slots, and
it subtracts their number from both counters.
-/

namespace ReliableService

/-- An operation on one service record. -/
inductive CopyEvent (nmr : UInt8)
  | registration
  | pong (idCopy : Fin nmr.toNat)
  | check
  deriving DecidableEq

namespace ServiceRecord

variable {nmr : UInt8}

/-- The record after an operation; a refused registration leaves it as it was. -/
def afterEvent (record : ServiceRecord nmr) : CopyEvent nmr → ServiceRecord nmr
  | .registration => record.register.getD record
  | .pong idCopy => record.registerPong idCopy
  | .check => record.checkPong

def afterEvents (record : ServiceRecord nmr) (events : List (CopyEvent nmr)) : ServiceRecord nmr :=
  events.foldl afterEvent record

@[simp] theorem afterEvents_nil (record : ServiceRecord nmr) : record.afterEvents [] = record := rfl

@[simp] theorem afterEvents_cons (record : ServiceRecord nmr) (event : CopyEvent nmr)
    (events : List (CopyEvent nmr)) :
    record.afterEvents (event :: events) = (record.afterEvent event).afterEvents events := rfl

@[simp] theorem afterEvents_append (record : ServiceRecord nmr)
    (first second : List (CopyEvent nmr)) :
    record.afterEvents (first ++ second) = (record.afterEvents first).afterEvents second :=
  List.foldl_append

/-- The slots whose copy counts as working, now or once its waiting pong is seen. -/
def live (record : ServiceRecord nmr) : Finset (Fin nmr.toNat) :=
  Finset.univ.filter fun j => record.pongOf j = true ∨ record.lostOf j < liveness

@[simp] theorem lostOf_init (owner : String) (dealerSocket dealerSktIndex : UInt16)
    (j : Fin nmr.toNat) :
    (init owner dealerSocket dealerSktIndex : ServiceRecord nmr).lostOf j = -1 := by
  simp [lostOf, init]

theorem mem_live {record : ServiceRecord nmr} {j : Fin nmr.toNat} :
    j ∈ record.live ↔ record.pongOf j = true ∨ record.lostOf j < liveness := by
  simp [live]

theorem mem_unreliableUnits {record : ServiceRecord nmr} {j : Fin nmr.toNat} :
    j ∈ record.unreliableUnits ↔
      record.pongOf j = false ∧ record.lostOf j + 1 = liveness := by
  simp only [unreliableUnits, Finset.mem_filter, Finset.mem_univ, true_and, Bool.and_eq_true,
    Bool.not_eq_true', decide_eq_true_eq]
  constructor
  · rintro ⟨⟨hnew, -⟩, hlost⟩
    exact ⟨hnew, hlost⟩
  · rintro ⟨hnew, hlost⟩
    exact ⟨⟨hnew, by omega⟩, hlost⟩

theorem card_live_le (record : ServiceRecord nmr) : record.live.card ≤ nmr.toNat :=
  calc record.live.card ≤ Fintype.card (Fin nmr.toNat) := Finset.card_le_univ _
    _ = nmr.toNat := Fintype.card_fin _

/-! ## Registration -/

theorem register_eq_none {record : ServiceRecord nmr} :
    record.register = none ↔ nmr ≤ record.numCopiesRegistered := by
  simp [register, UInt8.not_lt]

theorem register_eq_some {record record' : ServiceRecord nmr} :
    record.register = some record' ↔ record.numCopiesRegistered < nmr ∧
      record' = { record with
        numCopiesRegistered := record.numCopiesRegistered + 1
        numCopiesReliable := record.numCopiesReliable + 1 } := by
  unfold register
  split <;> simp_all [eq_comm]

/-- A registration touches no slot. -/
theorem pongOf_registration (record : ServiceRecord nmr) (j : Fin nmr.toNat) :
    (record.afterEvent .registration).pongOf j = record.pongOf j := by
  cases hregister : record.register with
  | none => simp [afterEvent, hregister]
  | some record' =>
      obtain ⟨-, rfl⟩ := register_eq_some.mp hregister
      rw [afterEvent, hregister]
      rfl

theorem lostOf_registration (record : ServiceRecord nmr) (j : Fin nmr.toNat) :
    (record.afterEvent .registration).lostOf j = record.lostOf j := by
  cases hregister : record.register with
  | none => simp [afterEvent, hregister]
  | some record' =>
      obtain ⟨-, rfl⟩ := register_eq_some.mp hregister
      rw [afterEvent, hregister]
      rfl

/-- A registration that is not refused cannot wrap the counter. -/
theorem toNat_succ_of_lt {count : UInt8} (h : count < nmr) :
    (count + 1).toNat = count.toNat + 1 := by
  have hlt := UInt8.lt_iff_toNat_lt.mp h
  have hbound := nmr.toNat_lt
  rw [UInt8.toNat_add]
  simp only [UInt8.reduceToNat]
  omega

/-! ## Pong -/

@[simp] theorem lostOf_registerPong (record : ServiceRecord nmr) (idCopy j : Fin nmr.toNat) :
    (record.registerPong idCopy).lostOf j = record.lostOf j := rfl

@[simp] theorem registerPong_numCopiesReliable (record : ServiceRecord nmr)
    (idCopy : Fin nmr.toNat) :
    (record.registerPong idCopy).numCopiesReliable = record.numCopiesReliable := rfl

theorem pongOf_registerPong_self (record : ServiceRecord nmr) (idCopy : Fin nmr.toNat) :
    (record.registerPong idCopy).pongOf idCopy = true := by
  simp [pongOf, registerPong]

theorem pongOf_registerPong_of_ne (record : ServiceRecord nmr) {idCopy j : Fin nmr.toNat}
    (hne : idCopy ≠ j) : (record.registerPong idCopy).pongOf j = record.pongOf j := by
  have hval : (idCopy : ℕ) ≠ j := fun h => hne (Fin.ext h)
  simp [pongOf, registerPong, hval]

theorem live_registerPong (record : ServiceRecord nmr) (idCopy : Fin nmr.toNat) :
    (record.registerPong idCopy).live = insert idCopy record.live := by
  ext j
  rw [Finset.mem_insert, mem_live, mem_live]
  by_cases hj : j = idCopy
  · subst hj
    exact iff_of_true (Or.inl (pongOf_registerPong_self record j)) (Or.inl rfl)
  · rw [pongOf_registerPong_of_ne record (Ne.symm hj)]
    simp [hj]

/-! ## Check -/

theorem checkSlot_fst (newPong : Bool) (lostPong : Int) :
    (checkSlot newPong lostPong).1 = false := by
  unfold checkSlot
  cases newPong with
  | true => simp
  | false => split <;> rfl

theorem checkSlot_snd (newPong : Bool) (lostPong : Int) :
    (checkSlot newPong lostPong).2 =
      if newPong then 0 else if lostPong < liveness then lostPong + 1 else lostPong := by
  unfold checkSlot
  cases newPong with
  | true => simp
  | false =>
      simp only [Bool.not_false, Bool.true_and, decide_eq_true_eq, Bool.false_eq_true, if_false]
      split <;> rfl

theorem pongOf_checkPong (record : ServiceRecord nmr) (j : Fin nmr.toNat) :
    record.checkPong.pongOf j = false := by
  rw [pongOf, checkPong, Fin.getElem_fin, Vector.getElem_ofFn]
  exact checkSlot_fst ..

theorem lostOf_checkPong (record : ServiceRecord nmr) (j : Fin nmr.toNat) :
    record.checkPong.lostOf j =
      if record.pongOf j then 0
      else if record.lostOf j < liveness then record.lostOf j + 1
      else record.lostOf j := by
  rw [lostOf, checkPong, Fin.getElem_fin, Vector.getElem_ofFn]
  exact checkSlot_snd ..

theorem unreliableUnits_subset_live (record : ServiceRecord nmr) :
    record.unreliableUnits ⊆ record.live := by
  intro j hj
  have := (mem_unreliableUnits.mp hj).2
  exact mem_live.mpr (Or.inr (by omega))

/-- `check_pong` takes the newly unreliable slots out of the live ones, and no others. -/
theorem live_checkPong (record : ServiceRecord nmr) :
    record.checkPong.live = record.live \ record.unreliableUnits := by
  ext j
  rw [Finset.mem_sdiff, mem_live, mem_live, mem_unreliableUnits, pongOf_checkPong,
    lostOf_checkPong]
  cases record.pongOf j with
  | true => simp [liveness]
  | false =>
      simp only [Bool.false_eq_true, if_false, false_or, true_and]
      split <;> omega

theorem card_live_checkPong (record : ServiceRecord nmr) :
    record.checkPong.live.card + record.unreliableUnits.card = record.live.card := by
  rw [live_checkPong]
  exact Finset.card_sdiff_add_card_eq_card record.unreliableUnits_subset_live

theorem card_unreliableUnits_lt (record : ServiceRecord nmr) :
    record.unreliableUnits.card < 256 := by
  calc record.unreliableUnits.card
      ≤ record.live.card := Finset.card_le_card record.unreliableUnits_subset_live
    _ ≤ nmr.toNat := record.card_live_le
    _ < 256 := nmr.toNat_lt

/-- A `check_pong` that does not subtract more than the counter holds. -/
theorem toNat_sub_unreliableUnits {record : ServiceRecord nmr} {count : UInt8}
    (h : record.unreliableUnits.card ≤ count.toNat) :
    (count - UInt8.ofNat record.unreliableUnits.card).toNat + record.unreliableUnits.card =
      count.toNat := by
  have hlt := record.card_unreliableUnits_lt
  have hunits : (UInt8.ofNat record.unreliableUnits.card).toNat = record.unreliableUnits.card := by
    rw [UInt8.toNat_ofNat']
    omega
  have hle : UInt8.ofNat record.unreliableUnits.card ≤ count := by
    rw [UInt8.le_iff_toNat_le, hunits]
    exact h
  rw [UInt8.toNat_sub_of_le _ _ hle, hunits]
  omega

/-! ## The two counters are one -/

theorem counters_afterEvent {record : ServiceRecord nmr}
    (h : record.numCopiesRegistered = record.numCopiesReliable) (event : CopyEvent nmr) :
    (record.afterEvent event).numCopiesRegistered =
      (record.afterEvent event).numCopiesReliable := by
  cases event with
  | registration =>
      cases hregister : record.register with
      | none => simpa [afterEvent, hregister] using h
      | some record' =>
          obtain ⟨-, rfl⟩ := register_eq_some.mp hregister
          simp [afterEvent, hregister, h]
  | pong idCopy => exact h
  | check => simp [afterEvent, checkPong, h]

/-- Both counters start at one and move together, wrapped or not. -/
theorem counters_afterEvents {record : ServiceRecord nmr}
    (h : record.numCopiesRegistered = record.numCopiesReliable) (events : List (CopyEvent nmr)) :
    (record.afterEvents events).numCopiesRegistered =
      (record.afterEvents events).numCopiesReliable := by
  induction events generalizing record with
  | nil => exact h
  | cons event events ih => exact ih (counters_afterEvent h event)

end ServiceRecord

end ReliableService
