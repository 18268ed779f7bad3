import ReliableService.Copies.Slots
import ReliableService.Requests.Records

/-!
# What the pongs and the checks of a service come to

After any sequence of `register_pong` and `check_pong` on a service that has just registered,
what the record says about a copy is a function of the pongs of this copy and of the checks.
`slotAfter` follows one copy through such a history, `slot_watched` says that every slot of the
record is where its own history has brought it, and `slotAfter_eq` is the closed form: the
number of silent rounds in a row, up to `LIVENESS`, and one less for a copy that has never
ponged.

Histories are written latest first.
-/

namespace ReliableService

variable {nmr : UInt8}

/-- What heartbeating does to a record. -/
inductive WatchEvent (nmr : UInt8)
  | pong (idCopy : Fin nmr.toNat)
  | check
  deriving DecidableEq

namespace WatchEvent

def operation : WatchEvent nmr → CopyEvent nmr
  | .pong idCopy => .pong idCopy
  | .check => .check

/-- A check, or a pong of copy `j`. -/
def concerns (j : Fin nmr.toNat) : WatchEvent nmr → Bool
  | .pong idCopy => idCopy = j
  | .check => true

/-- Copy `j` has ponged in the round that is open. -/
def Ponged (j : Fin nmr.toNat) (history : List (WatchEvent nmr)) : Prop :=
  .pong j ∈ history.takeWhile (· ≠ .check)

instance (j : Fin nmr.toNat) (history : List (WatchEvent nmr)) : Decidable (Ponged j history) :=
  inferInstanceAs (Decidable (_ ∈ _))

/-- The rounds in a row, back from the last check, in which copy `j` has not ponged. -/
def silentRounds (j : Fin nmr.toNat) : List (WatchEvent nmr) → ℕ
  | [] => 0
  | .pong _ :: earlier => silentRounds j earlier
  | .check :: earlier => if Ponged j earlier then 0 else silentRounds j earlier + 1

end WatchEvent

open WatchEvent

namespace ServiceRecord

/-! ## One copy -/

/-- `new_pong[j]` and `lost_pong[j]`. -/
def slot (record : ServiceRecord nmr) (j : Fin nmr.toNat) : Bool × Int :=
  (record.pongOf j, record.lostOf j)

/-- The slot of copy `j` after a history. -/
def slotAfter (j : Fin nmr.toNat) : List (WatchEvent nmr) → Bool × Int
  | [] => (false, -1)
  | .pong idCopy :: earlier =>
      if idCopy = j then (true, (slotAfter j earlier).2) else slotAfter j earlier
  | .check :: earlier => checkSlot (slotAfter j earlier).1 (slotAfter j earlier).2

/-- The record after a sequence of events. -/
def watched (record : ServiceRecord nmr) (events : List (WatchEvent nmr)) : ServiceRecord nmr :=
  record.afterEvents (events.map operation)

variable {record record' : ServiceRecord nmr} {j : Fin nmr.toNat}
  {history events events' : List (WatchEvent nmr)}

@[simp] theorem watched_append (record : ServiceRecord nmr) (events : List (WatchEvent nmr))
    (event : WatchEvent nmr) :
    record.watched (events ++ [event]) = (record.watched events).afterEvent event.operation := by
  rw [watched, List.map_append, afterEvents_append]
  rfl

theorem slot_registerPong (record : ServiceRecord nmr) (idCopy j : Fin nmr.toNat) :
    (record.registerPong idCopy).slot j =
      if idCopy = j then (true, (record.slot j).2) else record.slot j := by
  unfold slot
  split
  · rename_i hself
    rw [hself, pongOf_registerPong_self, lostOf_registerPong]
  · rename_i hne
    rw [pongOf_registerPong_of_ne record hne, lostOf_registerPong]

theorem slot_checkPong (record : ServiceRecord nmr) (j : Fin nmr.toNat) :
    record.checkPong.slot j = checkSlot (record.slot j).1 (record.slot j).2 := by
  unfold slot pongOf lostOf checkPong
  simp only [Fin.getElem_fin, Vector.getElem_ofFn, Fin.eta]
  rfl

/-- **Every slot is where its own history has brought it.** -/
theorem slot_watched (owner : String) (dealerSocket dealerSktIndex : UInt16)
    (events : List (WatchEvent nmr)) (j : Fin nmr.toNat) :
    ((init owner dealerSocket dealerSktIndex).watched events).slot j =
      slotAfter j events.reverse := by
  induction events using List.reverseRecOn with
  | nil =>
      show (_, _) = (false, (-1 : Int))
      rw [Prod.mk.injEq]
      exact ⟨by simp [watched, pongOf, init], lostOf_init ..⟩
  | append_singleton events event ih =>
      rw [watched_append, List.reverse_concat]
      cases event with
      | pong idCopy =>
          show ((watched _ events).registerPong idCopy).slot j = _
          rw [slot_registerPong, ih]
          rfl
      | check =>
          show (watched _ events).checkPong.slot j = _
          rw [slot_checkPong, ih]
          rfl

/-- The pongs of the other copies leave no trace. -/
theorem slotAfter_filter (j : Fin nmr.toNat) (history : List (WatchEvent nmr)) :
    slotAfter j (history.filter (concerns j)) = slotAfter j history := by
  induction history with
  | nil => rfl
  | cons event earlier ih =>
      cases event with
      | pong idCopy =>
          by_cases hself : idCopy = j
          · rw [List.filter_cons_of_pos (by simp [concerns, hself]), slotAfter, slotAfter, ih]
          · rw [List.filter_cons_of_neg (by simp [concerns, hself]), slotAfter, if_neg hself, ih]
      | check => rw [List.filter_cons_of_pos rfl, slotAfter, slotAfter, ih]

/-! ## The closed form -/

/-- What `lost_pong[j]` is after a history that ends with a check. -/
def lostAfter (j : Fin nmr.toNat) (history : List (WatchEvent nmr)) : Int :=
  if .pong j ∈ history.dropWhile (· ≠ .check) then min liveness (silentRounds j history)
  else min liveness (silentRounds j history - 1)

/-- A check closes the round, in which copy `j` has ponged or not. -/
theorem lostAfter_check (j : Fin nmr.toNat) (earlier : List (WatchEvent nmr)) :
    lostAfter j (.check :: earlier) =
      if Ponged j earlier then 0
      else if lostAfter j earlier < liveness then lostAfter j earlier + 1
      else lostAfter j earlier := by
  have hclosed : (WatchEvent.check :: earlier).dropWhile (· ≠ .check) = .check :: earlier := by
    simp
  have hmem : WatchEvent.pong j ∈ WatchEvent.check :: earlier ↔
      Ponged j earlier ∨ .pong j ∈ earlier.dropWhile (· ≠ .check) := by
    rw [List.mem_cons, or_iff_right (by simp)]
    conv_lhs => rw [← List.takeWhile_append_dropWhile (p := (· ≠ WatchEvent.check))
      (l := earlier), List.mem_append]
    rfl
  unfold lostAfter
  rw [hclosed, if_congr hmem rfl rfl, silentRounds]
  by_cases hponged : Ponged j earlier
  · simp [hponged, liveness]
  · simp only [hponged, false_or, if_false, liveness]
    split_ifs <;> omega

/-- **The slot in closed form.** -/
theorem slotAfter_eq (j : Fin nmr.toNat) (history : List (WatchEvent nmr)) :
    slotAfter j history = (decide (Ponged j history), lostAfter j history) := by
  induction history with
  | nil => rfl
  | cons event earlier ih =>
      cases event with
      | pong idCopy =>
          have hlost : lostAfter j (.pong idCopy :: earlier) = lostAfter j earlier := by
            simp [lostAfter, silentRounds]
          have hponged : Ponged j (.pong idCopy :: earlier) ↔ idCopy = j ∨ Ponged j earlier := by
            simp [Ponged, eq_comm]
          rw [slotAfter, ih, hlost]
          split
          · rename_i hself
            rw [decide_eq_true (hponged.mpr (.inl hself))]
          · rename_i hne
            rw [decide_eq_decide.mpr (hponged.trans (or_iff_right hne))]
      | check =>
          have hponged : ¬ Ponged j (.check :: earlier) := by simp [Ponged]
          rw [slotAfter, ih, lostAfter_check]
          refine Prod.ext ?_ ?_
          · rw [checkSlot_fst]
            exact (decide_eq_false hponged).symm
          · rw [checkSlot_snd]
            simp only [decide_eq_true_eq]

/-! ## One check -/

/-- The copies whose `lost_pong` becomes `LIVENESS`. -/
def becameUnreliable (record record' : ServiceRecord nmr) : Finset (Fin nmr.toNat) :=
  Finset.univ.filter fun j => record.lostOf j ≠ liveness ∧ record'.lostOf j = liveness

theorem becameUnreliable_checkPong (record : ServiceRecord nmr) :
    becameUnreliable record record.checkPong = record.unreliableUnits := by
  ext j
  rw [becameUnreliable, Finset.mem_filter, and_iff_right (Finset.mem_univ j), mem_unreliableUnits,
    lostOf_checkPong]
  cases record.pongOf j with
  | true => simp [liveness]
  | false =>
      simp only [Bool.false_eq_true, if_false, true_and]
      split <;> omega

theorem newPong_checkPong (record : ServiceRecord nmr) :
    record.checkPong.newPong = Vector.replicate nmr.toNat false := by
  ext j hj
  rw [Vector.getElem_replicate]
  exact pongOf_checkPong record ⟨j, hj⟩

/-- What `check_pong` makes of a record is all said: nothing else changes. -/
theorem checkPong_eq (record : ServiceRecord nmr) :
    record.checkPong = { record with
      newPong := Vector.replicate nmr.toNat false
      lostPong := record.checkPong.lostPong
      numCopiesReliable := record.numCopiesReliable -
        UInt8.ofNat (becameUnreliable record record.checkPong).card
      numCopiesRegistered := record.numCopiesRegistered -
        UInt8.ofNat (becameUnreliable record record.checkPong).card
      seqIdPing := record.seqIdPing + 1 } := by
  rw [becameUnreliable_checkPong, ← newPong_checkPong]
  rfl

/-- A second pong in the same round finds the flag set. -/
theorem registerPong_of_ponged (h : record.pongOf j = true) : record.registerPong j = record := by
  have hset : record.newPong.set j true = record.newPong := by
    ext k hk
    rw [Vector.getElem_set]
    split
    · rename_i heq
      subst heq
      exact h.symm
    · rfl
  rw [registerPong, hset]

end ServiceRecord

/-! ## In the database -/

namespace ServiceDatabase

open ServiceRecord

variable {db : ServiceDatabase nmr} {service : ServiceType} {record : ServiceRecord nmr}

/-- `register_pong` or `check_pong`. -/
def watch (service : ServiceType) (db : ServiceDatabase nmr) :
    WatchEvent nmr → Effect (ServiceDatabase nmr)
  | .pong idCopy => db.registerPong (UInt8.ofNat idCopy) service
  | .check => db.checkPong service

def watchAll (service : ServiceType) (db : ServiceDatabase nmr) (events : List (WatchEvent nmr)) :
    Effect (ServiceDatabase nmr) :=
  events.foldlM (watch service) db

theorem insert_insert (db : ServiceDatabase nmr) (service : ServiceType)
    (record record' : ServiceRecord nmr) :
    (db.insert service record).insert service record' = db.insert service record' := by
  unfold insert
  congr 1
  funext other
  by_cases hother : other = service
  · rw [if_pos hother, if_pos hother]
  · simp only [if_neg hother]

theorem insert_injective {record' : ServiceRecord nmr}
    (h : db.insert service record = db.insert service record') : record = record' := by
  have hself := congrFun (congrArg servicesDb h) service
  rwa [insert_self, insert_self, Option.some.injEq] at hself

theorem watch_of_some (h : db.servicesDb service = some record) (event : WatchEvent nmr) :
    db.watch service event = pure (db.insert service (record.afterEvent event.operation)) := by
  cases event with
  | pong idCopy =>
      have hid : (UInt8.ofNat idCopy).toNat = idCopy := by
        rw [UInt8.toNat_ofNat', Nat.mod_eq_of_lt (idCopy.isLt.trans nmr.toNat_lt)]
      have hlt : (UInt8.ofNat idCopy).toNat < nmr.toNat := hid.trans_lt idCopy.isLt
      have heq : (⟨_, hlt⟩ : Fin nmr.toNat) = idCopy := Fin.ext hid
      rw [watch, registerPong_of_some h hlt, heq]
      rfl
  | check => exact checkPong_of_some h

/-- **Heartbeating writes one record.** -/
theorem watchAll_of_some (h : db.servicesDb service = some record)
    (events : List (WatchEvent nmr)) :
    db.watchAll service events = pure (db.insert service (record.watched events)) := by
  induction events generalizing db record with
  | nil => exact congrArg pure (insert_eq_self h).symm
  | cons event events ih =>
      rw [watchAll, List.foldlM_cons, watch_of_some h, Outcome.pure_bind']
      refine (ih (insert_self ..)).trans ?_
      rw [insert_insert]
      rfl

/-- What the events on a service that has just registered come to, and the check after them. -/
structure Accounted (fresh : ServiceDatabase nmr) (service : ServiceType)
    (events : List (WatchEvent nmr)) (record record' : ServiceRecord nmr) : Prop where
  before : fresh.watchAll service events = pure (fresh.insert service record)
  after : fresh.watchAll service (events ++ [.check]) = pure (fresh.insert service record')
  lost : ∀ j, record'.lostOf j =
    if .pong j ∈ events then min liveness (silentRounds j (.check :: events.reverse))
    else min liveness (silentRounds j (.check :: events.reverse) - 1)
  written : record' = { record with
    newPong := Vector.replicate nmr.toNat false
    lostPong := record'.lostPong
    numCopiesReliable := record.numCopiesReliable -
      UInt8.ofNat (becameUnreliable record record').card
    numCopiesRegistered := record.numCopiesRegistered -
      UInt8.ofNat (becameUnreliable record record').card
    seqIdPing := record.seqIdPing + 1 }
  /-- Only the pongs of a copy and the checks matter to it. -/
  alone : ∀ j events' other, events'.filter (concerns j) = events.filter (concerns j) →
    fresh.watchAll service events' = pure (fresh.insert service other) →
    other.lostOf j = record.lostOf j
  /-- A further pong in the same round changes nothing. -/
  once : ∀ j, Ponged j events.reverse →
    fresh.watchAll service (events ++ [.pong j]) = fresh.watchAll service events

theorem servicesDb_pushRegistration {rm : RegistrationModule}
    (h : db.servicesDb rm.service = none) (dealerSocket : UInt16) :
    (db.pushRegistration rm dealerSocket).db.servicesDb rm.service =
      some (ServiceRecord.init rm.signature dealerSocket db.nextDealerSktIndex) := by
  unfold pushRegistration
  rw [h]
  exact insert_self ..

/-- **Pong accounting is exact**, copy by copy. -/
theorem accounted_of_events {rm : RegistrationModule} (h : db.servicesDb rm.service = none)
    (dealerSocket : UInt16) (events : List (WatchEvent nmr)) :
    ∃ record record',
      Accounted (db.pushRegistration rm dealerSocket).db rm.service events record record' := by
  have hfresh := servicesDb_pushRegistration h dealerSocket
  have hslot : ∀ (events : List (WatchEvent nmr)) j,
      ((ServiceRecord.init rm.signature dealerSocket db.nextDealerSktIndex).watched events).slot j =
        slotAfter j events.reverse := slot_watched _ _ _
  generalize ServiceRecord.init rm.signature dealerSocket db.nextDealerSktIndex = start at *
  have hwatch := watchAll_of_some hfresh
  have hcheck : start.watched (events ++ [.check]) = (start.watched events).checkPong :=
    watched_append ..
  refine ⟨start.watched events, (start.watched events).checkPong, hwatch events, ?_, ?_,
    checkPong_eq _, ?_, ?_⟩
  · rw [hwatch, hcheck]
  · intro j
    have hlost := congrArg Prod.snd ((hslot (events ++ [.check]) j).trans (slotAfter_eq j _))
    rw [hcheck, List.reverse_concat] at hlost
    rw [show (start.watched events).checkPong.lostOf j = _ from hlost]
    simp [lostAfter]
  · intro j events' other hfilter hother
    have hslots : (start.watched events').slot j = (start.watched events).slot j := by
      rw [hslot, hslot, ← slotAfter_filter j events'.reverse, ← slotAfter_filter j events.reverse,
        List.filter_reverse, List.filter_reverse, hfilter]
    have hdb := Except.ok.inj (congrArg Outcome.result ((hwatch events').symm.trans hother))
    obtain rfl : start.watched events' = other := insert_injective hdb
    exact congrArg Prod.snd hslots
  · intro j hponged
    have hflag : (start.watched events).pongOf j = true := by
      have hfirst := congrArg Prod.fst ((hslot events j).trans (slotAfter_eq j _))
      rw [decide_eq_true hponged] at hfirst
      exact hfirst
    rw [hwatch, hwatch, watched_append]
    exact congrArg (fun r => pure (insert _ _ r)) (registerPong_of_ponged hflag)

/-- Copy `0` pongs twice before the first of five checks, copy `1` never. -/
def oneOfTwo : List (WatchEvent 2) :=
  [.pong ⟨0, by decide⟩, .pong ⟨0, by decide⟩, .check, .check, .check, .check]

theorem accounted_of_events_oneOfTwo :
    ∃ record record', Accounted (init.pushRegistration ⟨"pippo", 0⟩ dealerStartPort).db 0
      oneOfTwo record record' :=
  have hnone : (init : ServiceDatabase 2).servicesDb
      (⟨"pippo", 0⟩ : RegistrationModule).service = none := rfl
  accounted_of_events hnone dealerStartPort oneOfTwo

end ServiceDatabase

end ReliableService
