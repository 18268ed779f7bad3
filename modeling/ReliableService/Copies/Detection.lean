import ReliableService.Copies.Counters

/-!
# Detecting silent copies

A continuation is `Silent D` when it registers nobody and no slot of `D` pongs.  Three
quantities follow such a continuation:

* `losses`, how often a copy is declared unreliable; the counter goes down by exactly
  that much as long as it does not wrap (`reliable_add_losses`);
* `remaining`, the number of silent rounds a slot has left, at most `LIVENESS + 1` and
  one less after each `check_pong` (`remaining_afterEvents`);
* the live slots of `D`, each of which is lost once on its way out (`live_le_losses`).

So a silent slot is noticed if and only if it is live when the silence starts.  A slot
that was written off earlier stays at `LIVENESS` when a replacement registers, and the
replacement can die unnoticed: `detects_iff`.
-/

namespace ReliableService.ServiceRecord

variable {nmr : UInt8}

/-- No registration is accepted and no slot of `D` pongs. -/
def Silent (D : Finset (Fin nmr.toNat)) (record : ServiceRecord nmr) :
    List (CopyEvent nmr) → Prop
  | [] => True
  | event :: events =>
      (match event with
        | .registration => record.register = none
        | .pong idCopy => idCopy ∉ D
        | .check => True) ∧ Silent D (record.afterEvent event) events

/-- How often a copy is declared unreliable. -/
def losses (record : ServiceRecord nmr) : List (CopyEvent nmr) → ℕ
  | [] => 0
  | event :: events =>
      (if event = .check then record.unreliableUnits.card else 0) +
        losses (record.afterEvent event) events

/-- The slots of a record that no operation has taken out of the range of the code. -/
def InRange (record : ServiceRecord nmr) : Prop :=
  ∀ j : Fin nmr.toNat, -1 ≤ record.lostOf j ∧ record.lostOf j ≤ liveness

theorem inRange_init (owner : String) (dealerSocket dealerSktIndex : UInt16) :
    InRange (init owner dealerSocket dealerSktIndex : ServiceRecord nmr) := by
  intro j
  simp [liveness]

theorem InRange.afterEvent {record : ServiceRecord nmr} (h : InRange record)
    (event : CopyEvent nmr) : InRange (record.afterEvent event) := by
  intro j
  have hj := h j
  cases event with
  | registration =>
      rw [lostOf_registration]
      exact hj
  | pong idCopy => exact hj
  | check =>
      simp only [ServiceRecord.afterEvent, lostOf_checkPong, liveness] at hj ⊢
      split_ifs <;> omega

theorem InRange.afterEvents {record : ServiceRecord nmr} (h : InRange record)
    (events : List (CopyEvent nmr)) : InRange (record.afterEvents events) := by
  induction events generalizing record with
  | nil => exact h
  | cons event events ih => exact ih (h.afterEvent event)

/-! ## The counter and the losses -/

theorem Silent.register {D : Finset (Fin nmr.toNat)} {record : ServiceRecord nmr}
    {events : List (CopyEvent nmr)} (h : Silent D record (.registration :: events)) :
    record.afterEvent .registration = record := by
  rw [afterEvent, h.1, Option.getD_none]

/-- **The counter goes down by the losses**, while it holds enough. -/
theorem reliable_add_losses {D : Finset (Fin nmr.toNat)} {record : ServiceRecord nmr}
    {events : List (CopyEvent nmr)} (hsilent : Silent D record events)
    (hle : losses record events ≤ record.numCopiesReliable.toNat) :
    (record.afterEvents events).numCopiesReliable.toNat + losses record events =
      record.numCopiesReliable.toNat := by
  induction events generalizing record with
  | nil => rfl
  | cons event events ih =>
      cases event with
      | registration =>
          have hsame := hsilent.register
          have hrest := hsilent.2
          simp only [losses, afterEvents_cons, hsame] at hle hrest ⊢
          simp only [reduceCtorEq, if_false, Nat.zero_add] at hle ⊢
          exact ih hrest hle
      | pong idCopy =>
          simp only [losses, reduceCtorEq, if_false, Nat.zero_add] at hle ⊢
          exact ih hsilent.2 hle
      | check =>
          simp only [losses, if_true] at hle ⊢
          have hcount : (record.afterEvent .check).numCopiesReliable.toNat +
              record.unreliableUnits.card = record.numCopiesReliable.toNat :=
            toNat_sub_unreliableUnits (by omega)
          have hlater := ih hsilent.2 (by omega)
          calc (record.afterEvents (.check :: events)).numCopiesReliable.toNat +
                (record.unreliableUnits.card + losses (record.afterEvent .check) events)
              = (record.afterEvent .check).numCopiesReliable.toNat +
                  record.unreliableUnits.card := by
                rw [afterEvents_cons]
                omega
            _ = record.numCopiesReliable.toNat := hcount

/-! ## Silent rounds left -/

/-- The silent rounds a slot has left before its copy is written off. -/
def remaining (record : ServiceRecord nmr) (j : Fin nmr.toNat) : ℕ :=
  if record.pongOf j then liveness.toNat + 1 else (liveness - record.lostOf j).toNat

theorem mem_live_iff_remaining {record : ServiceRecord nmr} {j : Fin nmr.toNat} :
    j ∈ record.live ↔ 0 < record.remaining j := by
  rw [mem_live, remaining]
  split
  · simp_all
  · simp only [*, Bool.false_eq_true, false_or]
    omega

theorem remaining_le {record : ServiceRecord nmr} (h : InRange record) (j : Fin nmr.toNat) :
    record.remaining j ≤ liveness.toNat + 1 := by
  have := h j
  rw [remaining]
  split <;> omega

theorem remaining_checkPong (record : ServiceRecord nmr) (j : Fin nmr.toNat) :
    record.checkPong.remaining j = record.remaining j - 1 := by
  rw [remaining, remaining, pongOf_checkPong, lostOf_checkPong]
  cases record.pongOf j with
  | true => simp [liveness]
  | false =>
      simp only [Bool.false_eq_true, if_false]
      split <;> omega

/-- **Each round takes one from a silent slot.** -/
theorem remaining_afterEvents {D : Finset (Fin nmr.toNat)} {record : ServiceRecord nmr}
    {events : List (CopyEvent nmr)} (hsilent : Silent D record events) {j : Fin nmr.toNat}
    (hj : j ∈ D) :
    (record.afterEvents events).remaining j = record.remaining j - events.count .check := by
  induction events generalizing record with
  | nil => rfl
  | cons event events ih =>
      rw [afterEvents_cons, ih hsilent.2, List.count_cons]
      cases event with
      | registration =>
          rw [hsilent.register]
          simp
      | pong idCopy =>
          have hne : idCopy ≠ j := fun h => hsilent.1 (h ▸ hj)
          have hsame : (record.afterEvent (.pong idCopy)).remaining j = record.remaining j := by
            simp only [remaining, afterEvent, pongOf_registerPong_of_ne record hne,
              lostOf_registerPong]
          rw [hsame]
          simp
      | check =>
          simp only [beq_self_eq_true, if_true]
          calc (record.afterEvent .check).remaining j - events.count .check
              = record.remaining j - 1 - events.count .check := by
                rw [afterEvent, remaining_checkPong]
            _ = record.remaining j - (events.count .check + 1) := by omega

/-- A slot that is silent for `LIVENESS + 1` rounds is not live at the end. -/
theorem notMem_live_of_silent {D : Finset (Fin nmr.toNat)} {record : ServiceRecord nmr}
    (hrange : InRange record) {events : List (CopyEvent nmr)} (hsilent : Silent D record events)
    (hrounds : liveness.toNat + 1 ≤ events.count .check) {j : Fin nmr.toNat} (hj : j ∈ D) :
    j ∉ (record.afterEvents events).live := by
  rw [mem_live_iff_remaining, remaining_afterEvents hsilent hj]
  have := remaining_le hrange j
  omega

/-! ## Every live slot of `D` is lost on its way out -/

theorem live_le_losses {D : Finset (Fin nmr.toNat)} {record : ServiceRecord nmr}
    {events : List (CopyEvent nmr)} (hsilent : Silent D record events) :
    (record.live ∩ D).card ≤
      ((record.afterEvents events).live ∩ D).card + losses record events := by
  induction events generalizing record with
  | nil => simp [losses]
  | cons event events ih =>
      have hrest := ih hsilent.2
      rw [afterEvents_cons, losses]
      cases event with
      | registration =>
          rw [hsilent.register] at hrest ⊢
          simpa using hrest
      | pong idCopy =>
          have hsame : (record.afterEvent (.pong idCopy)).live ∩ D = record.live ∩ D := by
            rw [afterEvent, live_registerPong, Finset.insert_inter_of_notMem hsilent.1]
          rw [hsame] at hrest
          simpa using hrest
      | check =>
          rw [if_pos rfl]
          have hsdiff : (record.afterEvent .check).live ∩ D =
              (record.live ∩ D) \ record.unreliableUnits := by
            rw [afterEvent, live_checkPong]
            exact Finset.sdiff_inter_right_comm ..
          have hcard : (record.live ∩ D).card ≤
              ((record.live ∩ D) \ record.unreliableUnits).card + record.unreliableUnits.card := by
            have := Finset.le_card_sdiff record.unreliableUnits (record.live ∩ D)
            omega
          calc (record.live ∩ D).card
              ≤ ((record.afterEvent .check).live ∩ D).card + record.unreliableUnits.card := by
                rw [hsdiff]
                exact hcard
            _ ≤ _ := by omega

/-! ## Within `LIVENESS + 1` rounds nobody is lost twice -/

/-- After `rounds` rounds the slots in `lost` have been given up once, the counter has
paid for them, and none of them is close to being given up again. -/
structure LostOnce (start : ℕ) (record : ServiceRecord nmr) (rounds : ℕ)
    (lost : Finset (Fin nmr.toNat)) : Prop where
  paid : record.numCopiesReliable.toNat + lost.card = start
  positive : lost.Nonempty → 1 ≤ rounds
  far : ∀ j ∈ lost, liveness ≤ record.lostOf j ∨ record.lostOf j + 2 ≤ rounds

theorem LostOnce.check {start : ℕ} {record : ServiceRecord nmr} {rounds : ℕ}
    {lost : Finset (Fin nmr.toNat)} (h : LostOnce start record rounds lost)
    (hstart : start = nmr.toNat) (hrounds : (rounds : ℤ) ≤ liveness) :
    Disjoint lost record.unreliableUnits ∧
      LostOnce start record.checkPong (rounds + 1) (lost ∪ record.unreliableUnits) := by
  have hdisjoint : Disjoint lost record.unreliableUnits := by
    rw [Finset.disjoint_left]
    intro j hj hunits
    have hlost := (mem_unreliableUnits.mp hunits).2
    have hfar := h.far j hj
    simp only [liveness] at *
    omega
  have hcard : lost.card + record.unreliableUnits.card ≤ nmr.toNat := by
    calc lost.card + record.unreliableUnits.card
        = (lost ∪ record.unreliableUnits).card := (Finset.card_union_of_disjoint hdisjoint).symm
      _ ≤ Fintype.card (Fin nmr.toNat) := Finset.card_le_univ _
      _ = nmr.toNat := Fintype.card_fin _
  have hpaid := h.paid
  have hsub : (record.checkPong.numCopiesReliable).toNat + record.unreliableUnits.card =
      record.numCopiesReliable.toNat := toNat_sub_unreliableUnits (by omega)
  refine ⟨hdisjoint, ?_, fun _ => Nat.le_add_left 1 rounds, fun j hj => ?_⟩
  · rw [Finset.card_union_of_disjoint hdisjoint]
    omega
  rw [lostOf_checkPong]
  rcases Finset.mem_union.mp hj with hlost | hunits
  · have hpositive := h.positive ⟨j, hlost⟩
    have hfar := h.far j hlost
    push_cast
    split
    · exact Or.inr (by omega)
    · split <;> omega
  · obtain ⟨hnew, hlost⟩ := mem_unreliableUnits.mp hunits
    rw [hnew, if_neg (by simp), if_pos (by omega)]
    exact Or.inl hlost.ge

theorem LostOnce.losses_le {D : Finset (Fin nmr.toNat)} {record : ServiceRecord nmr}
    {rounds : ℕ} {lost : Finset (Fin nmr.toNat)} {events : List (CopyEvent nmr)}
    (h : LostOnce nmr.toNat record rounds lost) (hsilent : Silent D record events)
    (hrounds : ((rounds + events.count .check : ℕ) : ℤ) ≤ liveness + 1) :
    lost.card + losses record events ≤ nmr.toNat := by
  induction events generalizing record rounds lost with
  | nil =>
      have := h.paid
      simp only [losses]
      omega
  | cons event events ih =>
      rw [losses]
      cases event with
      | registration =>
          have hrest := hsilent.2
          rw [hsilent.register] at hrest ⊢
          simpa using ih h hrest (by simpa using hrounds)
      | pong idCopy =>
          have hnext : LostOnce nmr.toNat (record.afterEvent (.pong idCopy)) rounds lost :=
            ⟨h.paid, h.positive, h.far⟩
          simpa using ih hnext hsilent.2 (by simpa using hrounds)
      | check =>
          rw [List.count_cons_self] at hrounds
          obtain ⟨hdisjoint, hnext⟩ := h.check rfl (by push_cast at hrounds; omega)
          have := ih hnext hsilent.2 (by push_cast at hrounds ⊢; omega)
          rw [Finset.card_union_of_disjoint hdisjoint] at this
          rw [if_pos rfl]
          show _ + (_ + losses record.checkPong events) ≤ _
          omega

/-- In `LIVENESS + 1` rounds from a full counter the losses do not exceed it. -/
theorem losses_le {D : Finset (Fin nmr.toNat)} {record : ServiceRecord nmr}
    {events : List (CopyEvent nmr)} (hfull : record.numCopiesReliable = nmr)
    (hsilent : Silent D record events) (hrounds : events.count .check = liveness.toNat + 1) :
    losses record events ≤ nmr.toNat := by
  have h : LostOnce nmr.toNat record 0 ∅ := ⟨by simp [hfull], by simp, by simp⟩
  simpa using h.losses_le hsilent (by rw [hrounds]; decide)

/-! ## A continuation in which everybody else is well -/

theorem losses_append (record : ServiceRecord nmr) (first second : List (CopyEvent nmr)) :
    losses record (first ++ second) =
      losses record first + losses (record.afterEvents first) second := by
  induction first generalizing record with
  | nil => simp [losses]
  | cons event first ih =>
      simp only [List.cons_append, losses, ih, afterEvents_cons]
      omega

theorem Silent.append {D : Finset (Fin nmr.toNat)} {record : ServiceRecord nmr}
    {first second : List (CopyEvent nmr)} (hfirst : Silent D record first)
    (hsecond : Silent D (record.afterEvents first) second) : Silent D record (first ++ second) := by
  induction first generalizing record with
  | nil => exact hsecond
  | cons event first ih => exact ⟨hfirst.1, ih hfirst.2 hsecond⟩

/-- The slots of `slots` pong and nothing else happens. -/
theorem afterEvents_pongs (record : ServiceRecord nmr) (slots : List (Fin nmr.toNat)) :
    (∀ j, (record.afterEvents (slots.map .pong)).lostOf j = record.lostOf j) ∧
      losses record (slots.map .pong) = 0 ∧
      ∀ j : Fin nmr.toNat, (record.afterEvents (slots.map .pong)).pongOf j = true ↔
        j ∈ slots ∨ record.pongOf j = true := by
  induction slots generalizing record with
  | nil => simp [losses]
  | cons slot slots ih =>
      obtain ⟨hlost, hlosses, hnew⟩ := ih (record.afterEvent (.pong slot))
      simp only [List.map_cons, afterEvents_cons, losses]
      refine ⟨hlost, by simpa using hlosses, ?_⟩
      intro j
      rw [hnew, List.mem_cons]
      by_cases hj : j = slot
      · subst hj
        exact iff_of_true (Or.inr (pongOf_registerPong_self record j)) (Or.inl (Or.inl rfl))
      · rw [afterEvent, pongOf_registerPong_of_ne record (Ne.symm hj)]
        simp [hj]

theorem silent_pongs {D : Finset (Fin nmr.toNat)} (record : ServiceRecord nmr)
    {slots : List (Fin nmr.toNat)} (hslots : ∀ j ∈ slots, j ∉ D) :
    Silent D record (slots.map .pong) := by
  induction slots generalizing record with
  | nil => trivial
  | cons slot slots ih =>
      exact ⟨hslots slot List.mem_cons_self,
        ih _ fun j hj => hslots j (List.mem_cons_of_mem slot hj)⟩

/-- The slots outside `D`. -/
def others (D : Finset (Fin nmr.toNat)) : List (Fin nmr.toNat) :=
  (List.finRange nmr.toNat).filter (· ∉ D)

/-- One round in which every slot outside `D` pongs. -/
def healthyRound (D : Finset (Fin nmr.toNat)) : List (CopyEvent nmr) :=
  (others D).map .pong ++ [.check]

theorem mem_others {D : Finset (Fin nmr.toNat)} {j : Fin nmr.toNat} : j ∈ others D ↔ j ∉ D := by
  simp [others]

theorem silent_healthyRound (D : Finset (Fin nmr.toNat)) (record : ServiceRecord nmr) :
    Silent D record (healthyRound D) :=
  (silent_pongs record fun _ => mem_others.mp).append ⟨trivial, trivial⟩

/-- A healthy round loses live slots of `D` and no other slot. -/
theorem losses_healthyRound (D : Finset (Fin nmr.toNat)) (record : ServiceRecord nmr) :
    losses record (healthyRound D) + ((record.afterEvents (healthyRound D)).live ∩ D).card =
      (record.live ∩ D).card := by
  obtain ⟨hlost, hlosses, hnew⟩ := afterEvents_pongs record (others D)
  set ponged := record.afterEvents ((others D).map .pong) with hponged
  have hunits : ponged.unreliableUnits ⊆ D := by
    intro j hj
    by_contra hnot
    have := (mem_unreliableUnits.mp hj).1
    rw [(hnew j).mpr (Or.inl (mem_others.mpr hnot))] at this
    exact Bool.noConfusion this
  have hlive : ponged.live ∩ D = record.live ∩ D := by
    ext j
    simp only [Finset.mem_inter, mem_live, hnew, hlost]
    constructor
    · rintro ⟨(hother | hj) | hj, hD⟩
      · exact absurd hD (mem_others.mp hother)
      · exact ⟨Or.inl hj, hD⟩
      · exact ⟨Or.inr hj, hD⟩
    · rintro ⟨hj, hD⟩
      exact ⟨hj.imp_left Or.inr, hD⟩
  have hafter : record.afterEvents (healthyRound D) = ponged.checkPong := by
    rw [healthyRound, afterEvents_append]
    rfl
  have hloss : losses record (healthyRound D) = ponged.unreliableUnits.card := by
    rw [healthyRound, losses_append, hlosses]
    simp [losses, ← hponged]
  have hsdiff : ponged.checkPong.live ∩ D = (record.live ∩ D) \ ponged.unreliableUnits := by
    rw [live_checkPong, Finset.sdiff_inter_right_comm, hlive]
  have hsubset : ponged.unreliableUnits ⊆ record.live ∩ D := by
    rw [← hlive]
    exact Finset.subset_inter ponged.unreliableUnits_subset_live hunits
  rw [hafter, hloss, hsdiff, Nat.add_comm]
  exact Finset.card_sdiff_add_card_eq_card hsubset

/-- `rounds` healthy rounds. -/
def healthyRounds (D : Finset (Fin nmr.toNat)) (rounds : ℕ) : List (CopyEvent nmr) :=
  (List.replicate rounds (healthyRound D)).flatten

theorem healthyRounds_succ (D : Finset (Fin nmr.toNat)) (rounds : ℕ) :
    healthyRounds D (rounds + 1) = healthyRound D ++ healthyRounds D rounds := by
  rw [healthyRounds, List.replicate_succ, List.flatten_cons, healthyRounds]

theorem count_check_healthyRounds (D : Finset (Fin nmr.toNat)) (rounds : ℕ) :
    (healthyRounds D rounds).count .check = rounds := by
  induction rounds with
  | zero => rfl
  | succ rounds ih =>
      have hpongs : ((others D).map CopyEvent.pong).count .check = 0 :=
        List.count_eq_zero.mpr (by simp)
      rw [healthyRounds_succ, healthyRound, List.count_append, List.count_append, hpongs, ih]
      simp [Nat.add_comm]

theorem silent_healthyRounds (D : Finset (Fin nmr.toNat)) (record : ServiceRecord nmr)
    (rounds : ℕ) : Silent D record (healthyRounds D rounds) := by
  induction rounds generalizing record with
  | zero => trivial
  | succ rounds ih =>
      rw [healthyRounds_succ]
      exact (silent_healthyRound D record).append (ih _)

theorem losses_healthyRounds_le (D : Finset (Fin nmr.toNat)) (record : ServiceRecord nmr)
    (rounds : ℕ) : losses record (healthyRounds D rounds) ≤ (record.live ∩ D).card := by
  induction rounds generalizing record with
  | zero => exact Nat.zero_le _
  | succ rounds ih =>
      rw [healthyRounds_succ, losses_append]
      have := ih (record.afterEvents (healthyRound D))
      have := losses_healthyRound D record
      omega

/-! ## Detection -/

/-- Whoever is silent in `D` for `LIVENESS + 1` rounds is no longer counted. -/
def Detects (record : ServiceRecord nmr) (D : Finset (Fin nmr.toNat)) : Prop :=
  ∀ events, Silent D record events → events.count .check = liveness.toNat + 1 →
    (record.afterEvents events).numCopiesReliable.toNat + D.card ≤ nmr.toNat

/-- Silent live slots are paid for by the counter as long as it does not wrap. -/
theorem reliable_le_of_silent {record : ServiceRecord nmr} (hrange : InRange record)
    (hfull : record.numCopiesReliable = nmr) {D : Finset (Fin nmr.toNat)}
    (hlive : D ⊆ record.live) {events : List (CopyEvent nmr)} (hsilent : Silent D record events)
    (hrounds : liveness.toNat + 1 ≤ events.count .check)
    (hlosses : losses record events ≤ nmr.toNat) :
    (record.afterEvents events).numCopiesReliable.toNat + D.card ≤ nmr.toNat := by
  have hend : (record.afterEvents events).live ∩ D = ∅ := by
    apply Finset.eq_empty_of_forall_notMem
    intro j hj
    rw [Finset.mem_inter] at hj
    exact notMem_live_of_silent hrange hsilent hrounds hj.2 hj.1
  have hcounter := reliable_add_losses hsilent (by rwa [hfull])
  have hlost := live_le_losses hsilent
  rw [hend, Finset.inter_eq_right.mpr hlive, Finset.card_empty] at hlost
  rw [hfull] at hcounter
  omega

/-- **Silent copies are detected if and only if they are live**, in every state a record
can reach with a full counter.  Over longer silences the live ones stay detected as long
as the counter does not wrap. -/
theorem detects_iff (owner : String) (dealerSocket dealerSktIndex : UInt16)
    (history : List (CopyEvent nmr)) (D : Finset (Fin nmr.toNat))
    (hfull : ((init owner dealerSocket dealerSktIndex).afterEvents history).numCopiesRegistered =
      nmr) :
    (Detects ((init owner dealerSocket dealerSktIndex).afterEvents history) D ↔
      D ⊆ ((init owner dealerSocket dealerSktIndex).afterEvents history).live) ∧
    (D ⊆ ((init owner dealerSocket dealerSktIndex).afterEvents history).live →
      ∀ events, Silent D ((init owner dealerSocket dealerSktIndex).afterEvents history) events →
        liveness.toNat + 1 ≤ events.count .check →
        losses ((init owner dealerSocket dealerSktIndex).afterEvents history) events ≤
          nmr.toNat →
        (((init owner dealerSocket dealerSktIndex).afterEvents history).afterEvents
          events).numCopiesReliable.toNat + D.card ≤ nmr.toNat) := by
  have hrange : InRange ((init owner dealerSocket dealerSktIndex).afterEvents history) :=
    (inRange_init owner dealerSocket dealerSktIndex).afterEvents history
  have hcounters : ((init owner dealerSocket dealerSktIndex).afterEvents history :
      ServiceRecord nmr).numCopiesRegistered = _ := counters_afterEvents rfl history
  generalize (init owner dealerSocket dealerSktIndex).afterEvents history = record at *
  rw [hcounters] at hfull
  refine ⟨⟨fun hdetects => ?_, fun hlive events hsilent hrounds => ?_⟩,
    fun hlive events hsilent hrounds hlosses =>
      reliable_le_of_silent hrange hfull hlive hsilent hrounds hlosses⟩
  · -- everybody else stays well, so only the live slots of `D` are paid for
    have hbound := hdetects _ (silent_healthyRounds D record (liveness.toNat + 1))
      (count_check_healthyRounds D _)
    have hlosses := losses_healthyRounds_le D record (liveness.toNat + 1)
    have hle : (record.live ∩ D).card ≤ D.card := Finset.card_le_card Finset.inter_subset_right
    have hD : D.card ≤ nmr.toNat :=
      calc D.card ≤ Fintype.card (Fin nmr.toNat) := Finset.card_le_univ D
        _ = nmr.toNat := Fintype.card_fin _
    have hcounter := reliable_add_losses (silent_healthyRounds D record (liveness.toNat + 1))
      (by rw [hfull]; omega)
    rw [hfull] at hcounter
    exact Finset.inter_eq_right.mp
      (Finset.eq_of_subset_of_card_le Finset.inter_subset_right (by omega))
  · exact reliable_le_of_silent hrange hfull hlive hsilent hrounds.ge
      (losses_le hfull hsilent hrounds)

/-- Three copies registered, one of them silent from the start. -/
theorem detects_iff_fresh :
    (Detects ((init "pippo" dealerStartPort 0 : ServiceRecord 3).afterEvents
        [.registration, .registration]) {⟨2, by decide⟩} ↔
      {⟨2, by decide⟩} ⊆ ((init "pippo" dealerStartPort 0 : ServiceRecord 3).afterEvents
        [.registration, .registration]).live) ∧
    ({⟨2, by decide⟩} ⊆ ((init "pippo" dealerStartPort 0 : ServiceRecord 3).afterEvents
        [.registration, .registration]).live →
      ∀ events, Silent {⟨2, by decide⟩} ((init "pippo" dealerStartPort 0 :
          ServiceRecord 3).afterEvents [.registration, .registration]) events →
        liveness.toNat + 1 ≤ events.count .check →
        losses ((init "pippo" dealerStartPort 0 : ServiceRecord 3).afterEvents
          [.registration, .registration]) events ≤ (3 : UInt8).toNat →
        (((init "pippo" dealerStartPort 0 : ServiceRecord 3).afterEvents
          [.registration, .registration]).afterEvents events).numCopiesReliable.toNat +
            ({⟨2, by decide⟩} : Finset (Fin (3 : UInt8).toNat)).card ≤ (3 : UInt8).toNat) :=
  detects_iff "pippo" dealerStartPort 0 [.registration, .registration] {⟨2, by decide⟩}
    (by decide +kernel)

/-- **Replacements that die at once are never noticed**: their slots still stand at `LIVENESS`
from the copies they replaced. -/
theorem replacement_unnoticed :
    ¬ ∀ (nmr : UInt8) (owner : String) (dealerSocket dealerSktIndex : UInt16)
      (history : List (CopyEvent nmr)) (D : Finset (Fin nmr.toNat)),
      ((init owner dealerSocket dealerSktIndex).afterEvents history).numCopiesRegistered = nmr →
      Detects ((init owner dealerSocket dealerSktIndex).afterEvents history) D := by
  intro h
  have hdetects := h 2 "pippo" dealerStartPort 0
    [.registration, .check, .check, .check, .check, .registration, .registration]
    {⟨0, by decide⟩, ⟨1, by decide⟩} (by decide +kernel) [.check, .check, .check, .check]
    (by simp [Silent]) (by decide)
  exact absurd hdetects (by decide +kernel)

end ReliableService.ServiceRecord
