import Mathlib.Data.List.Chain
import ReliableService.Requests.Records

/-!
# Deleting the records of a client

`delete_request` erases from the vector it walks along: the next record moves to the place of
the erased one, and `j++` steps over it.  `eraseLoop` is the loop as it stands, and
`eraseLoop_eq` takes it to the recursion `deleteLoop` that the model of the database uses.

Nothing of another client is lost on the way (`filter_deleteLoop`).  A record of the client
stays behind exactly when two of them are neighbours (`deleteLoop_eq_filter_iff`).
-/

namespace ReliableService

namespace ServiceRecord

variable {c : ClientId} {records : List RequestRecord}

/-! ## The code -/

/-- The loop of `delete_request`, given up after `fuel` iterations. -/
def eraseLoop (clientId : ClientId) : ℕ → UInt32 → List RequestRecord → Option (List RequestRecord)
  | 0, _, _ => none
  | fuel + 1, j, records =>
      match records[j.toNat]? with
      | none => some records
      | some record =>
          if record.clientId = clientId then
            eraseLoop clientId fuel (j + 1) (records.eraseIdx j.toNat)
          else eraseLoop clientId fuel (j + 1) records

/-- The loop ends at the end of the vector. -/
theorem eraseLoop_of_length_le {fuel : ℕ} {j : UInt32} (hfuel : 0 < fuel)
    (hend : records.length ≤ j.toNat) : eraseLoop c fuel j records = some records := by
  obtain ⟨fuel, rfl⟩ := Nat.exists_eq_succ_of_ne_zero hfuel.ne'
  rw [eraseLoop, List.getElem?_eq_none hend]

/-- One iteration, at the first of the records `record :: rest`. -/
theorem eraseLoop_append_cons (passed : List RequestRecord) (record : RequestRecord)
    (rest : List RequestRecord) (fuel : ℕ) (hsize : passed.length < UInt32.size) :
    eraseLoop c (fuel + 1) (UInt32.ofNat passed.length) (passed ++ record :: rest) =
      if record.clientId = c then
        eraseLoop c fuel (UInt32.ofNat (passed.length + 1)) (passed ++ rest)
      else eraseLoop c fuel (UInt32.ofNat (passed.length + 1)) (passed ++ record :: rest) := by
  have hindex : (UInt32.ofNat passed.length).toNat = passed.length := by
    rw [UInt32.toNat_ofNat', Nat.mod_eq_of_lt hsize]
  have hget : (passed ++ record :: rest)[passed.length]? = some record := by
    rw [List.getElem?_append_right le_rfl, Nat.sub_self, List.getElem?_cons_zero]
  have herase : (passed ++ record :: rest).eraseIdx passed.length = passed ++ rest := by
    rw [List.eraseIdx_append_of_length_le le_rfl, Nat.sub_self, List.eraseIdx_cons_zero]
  rw [eraseLoop, hindex, hget, herase, UInt32.ofNat_add]
  rfl

/-- Past the records `passed` the loop does to the rest what `deleteLoop` does. -/
theorem eraseLoop_append (passed rest : List RequestRecord) {fuel : ℕ}
    (hsize : passed.length + rest.length < UInt32.size) (hfuel : rest.length < fuel) :
    eraseLoop c fuel (UInt32.ofNat passed.length) (passed ++ rest) =
      some (passed ++ deleteLoop c rest) := by
  have hindex : ∀ k < UInt32.size, (UInt32.ofNat k).toNat = k := fun k hk => by
    rw [UInt32.toNat_ofNat', Nat.mod_eq_of_lt hk]
  fun_induction deleteLoop c rest generalizing passed fuel with
  | case1 =>
      rw [List.append_nil]
      exact eraseLoop_of_length_le hfuel (hindex _ (by simpa using hsize)).ge
  | case2 record hc =>
      obtain ⟨fuel, rfl⟩ := Nat.exists_eq_succ_of_ne_zero (Nat.ne_zero_of_lt hfuel)
      rw [List.length_singleton] at hsize hfuel
      rw [eraseLoop_append_cons passed record [] fuel (by omega), if_pos hc, List.append_nil]
      refine eraseLoop_of_length_le (Nat.lt_of_succ_lt_succ hfuel) ?_
      rw [hindex _ hsize]
      exact Nat.le_succ _
  | case3 record hc next rest ih =>
      obtain ⟨fuel, rfl⟩ := Nat.exists_eq_succ_of_ne_zero (Nat.ne_zero_of_lt hfuel)
      simp only [List.length_cons] at hsize hfuel
      rw [eraseLoop_append_cons passed record _ fuel (by omega), if_pos hc]
      -- the next record has moved to the place that is passed now
      have hfuel' : rest.length < fuel := by omega
      have hrest := ih (passed ++ [next])
        (by rw [List.length_append, List.length_singleton]; omega) hfuel'
      rw [List.length_append, List.length_singleton] at hrest
      simpa only [List.append_assoc, List.singleton_append] using hrest
  | case4 record rest hc ih =>
      obtain ⟨fuel, rfl⟩ := Nat.exists_eq_succ_of_ne_zero (Nat.ne_zero_of_lt hfuel)
      simp only [List.length_cons] at hsize hfuel
      rw [eraseLoop_append_cons passed record _ fuel (by omega), if_neg hc]
      have hfuel' : rest.length < fuel := by omega
      have hrest := ih (passed ++ [record])
        (by rw [List.length_append, List.length_singleton]; omega) hfuel'
      rw [List.length_append, List.length_singleton] at hrest
      simpa only [List.append_assoc, List.singleton_append] using hrest

/-- **The loop of `delete_request`**, on any vector its index can run through. -/
theorem eraseLoop_eq (hsize : records.length < UInt32.size) {fuel : ℕ}
    (hfuel : records.length < fuel) :
    eraseLoop c fuel 0 records = some (deleteLoop c records) := by
  have hsize' : ([] : List RequestRecord).length + records.length < UInt32.size := by
    rwa [List.length_nil, Nat.zero_add]
  exact eraseLoop_append [] records hsize' hfuel

/-! ## What it leaves -/

/-- No record of the client is followed by another one of it. -/
def Apart (c : ClientId) (records : List RequestRecord) : Prop :=
  records.IsChain fun record next => record.clientId = c → next.clientId ≠ c

instance (c : ClientId) (records : List RequestRecord) : Decidable (Apart c records) :=
  inferInstanceAs (Decidable (records.IsChain _))

/-- The records of the other clients all stay, in their order. -/
theorem filter_deleteLoop (c : ClientId) (records : List RequestRecord) :
    (deleteLoop c records).filter (·.clientId ≠ c) = records.filter (·.clientId ≠ c) := by
  fun_induction deleteLoop c records with
  | case1 => rfl
  | case2 record hc => simp [hc]
  | case3 record hc next rest ih => simp only [List.filter_cons, ih, hc]; simp
  | case4 record rest hc ih => simp only [List.filter_cons, ih]

/-- **Everything of the client goes** exactly when no two of its records are neighbours. -/
theorem deleteLoop_eq_filter_iff :
    deleteLoop c records = records.filter (·.clientId ≠ c) ↔ Apart c records := by
  fun_induction deleteLoop c records with
  | case1 => simp [Apart]
  | case2 record hc => simp [Apart, hc]
  | case3 record hc next rest ih =>
      by_cases hnext : next.clientId = c
      · -- the neighbour is stepped over
        refine iff_of_false ?_ ?_
        · intro heq
          have hmem : next ∈ (record :: next :: rest).filter (·.clientId ≠ c) :=
            heq ▸ List.mem_cons_self
          simp [hnext] at hmem
        · intro hapart
          exact (List.isChain_cons_cons.mp hapart).1 hc hnext
      · have hfilter : (record :: next :: rest).filter (·.clientId ≠ c) =
            next :: rest.filter (·.clientId ≠ c) := by simp [hc, hnext]
        rw [hfilter, List.cons_inj_right, ih]
        unfold Apart
        rw [List.isChain_cons_cons, List.isChain_cons (x := next)]
        constructor
        · intro hrest
          exact ⟨fun _ => hnext, fun _ _ hc' => absurd hc' hnext, hrest⟩
        · exact fun h => h.2.2
  | case4 record rest hc ih =>
      have hfilter : (record :: rest).filter (·.clientId ≠ c) =
          record :: rest.filter (·.clientId ≠ c) := by simp [hc]
      rw [hfilter, List.cons_inj_right, ih]
      unfold Apart
      rw [List.isChain_cons (x := record)]
      exact ⟨fun h => ⟨fun _ _ hc' => absurd hc' hc, h⟩, And.right⟩

end ServiceRecord

/-! ## In the database -/

namespace ServiceDatabase

open ServiceRecord

variable {nmr : UInt8} {db db' : ServiceDatabase nmr} {service : ServiceType}
  {record : ServiceRecord nmr} {c : ClientId}

/-- `db'` is `db` without the records of the client in the requests of the service. -/
structure WithoutClient (db db' : ServiceDatabase nmr) (service : ServiceType)
    (record : ServiceRecord nmr) (c : ClientId) : Prop where
  removed : db'.servicesDb service = some
    { record with requestRecords := record.requestRecords.filter (·.clientId ≠ c) }
  others : ∀ other, other ≠ service → db'.servicesDb other = db.servicesDb other
  next_eq : db'.nextDealerSktIndex = db.nextDealerSktIndex

/-- **`delete_request` deletes the records of the client and nothing else** exactly when no two
of them are neighbours. -/
theorem deleteRequest_exact_iff (h : db.servicesDb service = some record) (c : ClientId) :
    (∃ db', db.deleteRequest service c = pure db' ∧ db.WithoutClient db' service record c) ↔
      Apart c record.requestRecords := by
  rw [deleteRequest_of_some h, ← deleteLoop_eq_filter_iff]
  constructor
  · rintro ⟨db', heq, hwithout⟩
    have hdb' := congrArg Outcome.result heq
    rw [Outcome.pure_result, Outcome.pure_result, Except.ok.injEq] at hdb'
    have hremoved := hwithout.removed
    rw [← hdb', insert_self, Option.some.injEq] at hremoved
    exact congrArg requestRecords hremoved
  · intro heq
    refine ⟨_, rfl, ?_, fun other hother => insert_of_ne db hother _, rfl⟩
    rw [insert_self, heq]

/-- The requests of these clients wait at service `0`. -/
def waiting (clients : List ClientId) : ServiceDatabase 3 :=
  (init.pushRegistration ⟨"pippo", 0⟩ dealerStartPort).db.insert 0
    { ServiceRecord.init "pippo" dealerStartPort 0 with
      requestRecords := clients.map fun c => ⟨c, [], ⟨0, 0⟩⟩ }

theorem deleteRequest_exact_iff_waiting :
    (∃ db', (waiting [7, 8, 7]).deleteRequest 0 7 = pure db' ∧
        (waiting [7, 8, 7]).WithoutClient db' 0
          { ServiceRecord.init "pippo" dealerStartPort 0 with
            requestRecords := [7, 8, 7].map fun c => ⟨c, [], ⟨0, 0⟩⟩ } 7) ↔
      Apart 7 (([7, 8, 7] : List ClientId).map fun c => ⟨c, [], ⟨0, 0⟩⟩) :=
  deleteRequest_exact_iff (insert_self ..) 7

/-- **The second of two neighbours** is stepped over and stays. -/
theorem neighbour_stays :
    ¬ ∀ (nmr : UInt8) (db : ServiceDatabase nmr) (service : ServiceType)
      (record : ServiceRecord nmr) (c : ClientId), db.servicesDb service = some record →
      ∃ db', db.deleteRequest service c = pure db' ∧ db.WithoutClient db' service record c := by
  intro h
  obtain ⟨db', heq, hwithout⟩ := h 3 (waiting [7, 7]) 0 _ 7 (insert_self ..)
  have hdb' := congrArg (fun m => m.result.toOption.map (·.pending 0 |>.length)) heq
  have hremoved := pending_of_some hwithout.removed
  rw [Outcome.pure_result] at hdb'
  change _ = some (db'.pending 0).length at hdb'
  rw [hremoved] at hdb'
  exact absurd hdb' (by decide +kernel)

end ServiceDatabase

end ReliableService
