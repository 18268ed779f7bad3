import ReliableService.Lib.Loop
import ReliableService.Voting.Vote

/-!
# The voter, loop by loop

`vote` is three nested counting loops over `uint8_t` indices, with `uint8_t` counters and an
index that is returned as an `int8_t`.  `voteLoops` is that code, with an explicit number of
iterations after which it is given up.

`voteLoops_eq` is the refinement: enough iterations give what `vote` computes over natural
numbers, and on 256 values or more, where the index never reaches the size, no number of
iterations is enough.
-/

namespace ReliableService

open Majority

/-! ## The code -/

/-- `for (uint8_t i = 0; i < size; i++)`, where the comparison is one of `size_t`. -/
def forUInt8 {σ : Type} (size : ℕ) (body : UInt8 → σ → Option σ) (fuel : ℕ) (s : σ) : Option σ :=
  forLoop (fun i => i.toNat < size) (· + 1) body fuel 0 s

/-- `if (values[i] == values[j]) count[i]++` -/
def countStep (values : List Int32) (i j : UInt8) (count : List UInt8) : Option (List UInt8) :=
  if values[i.toNat]? = values[j.toNat]? then some (count.modify i.toNat (· + 1)) else some count

/-- The inner loop of `vote`. -/
def countEqual (values : List Int32) (fuel : ℕ) (i : UInt8) (count : List UInt8) :
    Option (List UInt8) :=
  forUInt8 values.length (countStep values i) fuel count

/-- The first loop of `vote`. -/
def countAll (values : List Int32) (fuel : ℕ) : Option (List UInt8) :=
  forUInt8 values.length (fun i count => countEqual values fuel i (count ++ [0])) fuel []

/-- The second loop of `vote`. -/
def maxIndex (count : List UInt8) (fuel : ℕ) : Option UInt8 :=
  forUInt8 count.length (fun i max =>
    some (if count.getD max.toNat 0 < count.getD i.toNat 0 then i else max)) fuel 0

/-- `vote` -/
def voteLoops (nmr : UInt8) (values : List Int32) (result : Option Int32) (fuel : ℕ) :
    Option (Int8 × Option Int32) := do
  let count ← countAll values fuel
  let max ← maxIndex count fuel
  -- no result received from the server
  if count.length = 0 then some (-1, result)
  else if nmr.toNat / 2 < (count.getD max.toNat 0).toNat then some (max.toInt8, values[max.toNat]?)
  else some (-1, result)

/-! ## The rule for its loops -/

section Rule

variable {σ : Type} {size fuel : ℕ} {body : UInt8 → σ → Option σ}

/-- Below 256 the index takes the values up to the size, each once. -/
theorem forUInt8_spec {P : ℕ → σ → Prop} {s : σ} (hsize : size < 256) (hfuel : size ≤ fuel)
    (hbody : ∀ k < size, ∀ s, P k s → ∃ t, body (UInt8.ofNat k) s = some t ∧ P (k + 1) t)
    (hs : P 0 s) : ∃ t, forUInt8 size body fuel s = some t ∧ P size t := by
  have hvalue : ∀ k ≤ size, (UInt8.ofNat k).toNat = k := by
    intro k hk
    rw [UInt8.toNat_ofNat', Nat.mod_eq_of_lt (by omega)]
  have hnext : ∀ k < size, UInt8.ofNat k + 1 = UInt8.ofNat (k + 1) := fun k _ =>
    (UInt8.ofNat_add k 1).symm
  have hcond : ∀ k < size, decide ((UInt8.ofNat k).toNat < size) = true := by
    intro k hk
    rw [hvalue k hk.le]
    exact decide_eq_true hk
  have hend : decide ((UInt8.ofNat size).toNat < size) = false := by
    rw [hvalue size le_rfl]
    exact decide_eq_false (lt_irrefl size)
  show ∃ t, forLoop (fun i : UInt8 => decide (i.toNat < size)) (· + 1) body fuel
    (UInt8.ofNat 0) s = some t ∧ P size t
  exact forLoop_spec hnext hcond hend hfuel hbody hs

theorem forUInt8_endless (hsize : 256 ≤ size) (s : σ) : forUInt8 size body fuel s = none := by
  apply forLoop_endless
  intro i
  apply decide_eq_true
  calc i.toNat < 256 := i.toNat_lt
    _ ≤ size := hsize

end Rule

/-! ## What the loops compute -/

variable {values : List Int32} {fuel : ℕ}

private theorem modify_concat (count : List UInt8) (c : UInt8) (f : UInt8 → UInt8) :
    (count ++ [c]).modify count.length f = count ++ [f c] := by
  induction count with
  | nil => rfl
  | cons first count ih => rw [List.cons_append, List.length_cons, List.modify_succ_cons, ih]; rfl

/-- The inner loop counts the value at `i` in the last entry. -/
theorem countEqual_eq (hlength : values.length < 256) (hfuel : values.length ≤ fuel)
    {count : List UInt8} (hi : count.length < values.length) :
    countEqual values fuel (UInt8.ofNat count.length) (count ++ [0]) =
      some (count ++ [UInt8.ofNat (values.count values[count.length])]) := by
  have hvalue : (UInt8.ofNat count.length).toNat = count.length := by
    rw [UInt8.toNat_ofNat', Nat.mod_eq_of_lt (by omega)]
  -- after `k` iterations the first `k` values are counted
  have hbody : ∀ k < values.length, ∀ count', count' = count ++
      [UInt8.ofNat ((values.take k).count values[count.length])] →
      ∃ t, countStep values (UInt8.ofNat count.length) (UInt8.ofNat k) count' = some t ∧
        t = count ++ [UInt8.ofNat ((values.take (k + 1)).count values[count.length])] := by
    rintro k hk _ rfl
    have hindex : (UInt8.ofNat k).toNat = k := by
      rw [UInt8.toNat_ofNat', Nat.mod_eq_of_lt (by omega)]
    have htake : (values.take (k + 1)).count values[count.length] =
        (values.take k).count values[count.length] +
          if values[count.length] = values[k] then 1 else 0 := by
      rw [List.take_succ_eq_append_getElem hk, List.count_append, List.count_singleton]
      by_cases heq : values[k] = values[count.length]
      · simp [heq]
      · simp [heq, Ne.symm heq]
    rw [countStep, hvalue, hindex, List.getElem?_eq_getElem hi, List.getElem?_eq_getElem hk]
    by_cases heq : values[count.length] = values[k]
    · rw [if_pos (congrArg some heq), modify_concat, htake, if_pos heq, UInt8.ofNat_add]
      exact ⟨_, rfl, rfl⟩
    · rw [if_neg (mt Option.some.inj heq), htake, if_neg heq, Nat.add_zero]
      exact ⟨_, rfl, rfl⟩
  obtain ⟨t, ht, hcount⟩ := forUInt8_spec (P := fun k count' =>
    count' = count ++ [UInt8.ofNat ((values.take k).count values[count.length])])
    hlength hfuel hbody rfl
  rw [List.take_length] at hcount
  exact ht.trans (congrArg some hcount)

/-- The first loop computes the counts. -/
theorem countAll_eq (hlength : values.length < 256) (hfuel : values.length ≤ fuel) :
    countAll values fuel = some (voteCount values) := by
  have hbody : ∀ k < values.length, ∀ count, count =
      ((values.take k).map fun value => UInt8.ofNat (values.count value)) →
      ∃ t, countEqual values fuel (UInt8.ofNat k) (count ++ [0]) = some t ∧
        t = (values.take (k + 1)).map fun value => UInt8.ofNat (values.count value) := by
    rintro k hk count rfl
    have hlen : ((values.take k).map fun value => UInt8.ofNat (values.count value)).length = k := by
      rw [List.length_map, List.length_take, Nat.min_eq_left hk.le]
    have hinner := countEqual_eq hlength hfuel (hlen.symm ▸ hk)
    simp only [hlen] at hinner
    refine ⟨_, hinner, ?_⟩
    rw [List.take_succ_eq_append_getElem hk, List.map_append]
    rfl
  obtain ⟨t, ht, hcount⟩ : ∃ t, countAll values fuel = some t ∧
      t = (values.take values.length).map fun value => UInt8.ofNat (values.count value) :=
    forUInt8_spec (P := fun k count =>
      count = (values.take k).map fun value => UInt8.ofNat (values.count value))
      hlength hfuel hbody rfl
  rw [List.take_length] at hcount
  exact ht.trans (congrArg some hcount)

/-- The second loop finds the first index of a largest count. -/
theorem maxIndex_eq {count : List UInt8} (hlength : count.length < 256)
    (hfuel : count.length ≤ fuel) : maxIndex count fuel = some (UInt8.ofNat (voteMax count)) := by
  have hbody : ∀ k < count.length, ∀ max : UInt8, max.toNat = (List.range k).foldl
      (fun max i => if count.getD max 0 < count.getD i 0 then i else max) 0 →
      ∃ t, some (if count.getD max.toNat 0 < count.getD (UInt8.ofNat k).toNat 0
          then UInt8.ofNat k else max) = some t ∧
        t.toNat = (List.range (k + 1)).foldl
          (fun max i => if count.getD max 0 < count.getD i 0 then i else max) 0 := by
    intro k hk max hmax
    refine ⟨_, rfl, ?_⟩
    have hindex : (UInt8.ofNat k).toNat = k := by
      rw [UInt8.toNat_ofNat', Nat.mod_eq_of_lt (by omega)]
    rw [List.range_succ, List.foldl_append, List.foldl_cons, List.foldl_nil, ← hmax, hindex]
    split
    · exact hindex
    · rfl
  obtain ⟨t, ht, hmax⟩ : ∃ t, maxIndex count fuel = some t ∧
      t.toNat = (List.range count.length).foldl
        (fun max i => if count.getD max 0 < count.getD i 0 then i else max) 0 :=
    forUInt8_spec (P := fun k (max : UInt8) => max.toNat = (List.range k).foldl
      (fun max i => if count.getD max 0 < count.getD i 0 then i else max) 0)
      hlength hfuel hbody rfl
  rw [voteMax, ← hmax, UInt8.ofNat_toNat]
  exact ht

/-- **The loops compute `vote`**, and end exactly if it does. -/
theorem voteLoops_eq (nmr : UInt8) (hfuel : values.length ≤ fuel) (result : Option Int32) :
    voteLoops nmr values result fuel = (vote nmr values result).result.toOption := by
  by_cases hlength : values.length < 256
  · have hcount : (voteCount values).length = values.length := by simp [voteCount]
    unfold voteLoops
    rw [countAll_eq hlength hfuel, Option.bind_eq_bind, Option.bind_some,
      maxIndex_eq (hcount.symm ▸ hlength) (hcount.symm ▸ hfuel), Option.bind_eq_bind,
      Option.bind_some, hcount]
    by_cases hne : values = []
    · subst hne
      rfl
    · obtain ⟨max, hmax, hdef, heq⟩ := vote_eq nmr hlength hne result
      have hindex : (UInt8.ofNat max).toNat = max := by
        rw [UInt8.toNat_ofNat', Nat.mod_eq_of_lt (by omega)]
      rw [← hdef, hindex, if_neg (mt List.eq_nil_of_length_eq_zero hne),
        voteCount_getD hlength hmax, List.getElem?_eq_getElem hmax, heq]
      by_cases hwins : Wins (nmr.toNat / 2) values[max] values
      · rw [if_pos hwins]
        exact if_pos hwins
      · rw [if_neg hwins]
        exact if_neg hwins
  · rw [vote, if_pos (not_lt.mp hlength), voteLoops, countAll,
      forUInt8_endless (not_lt.mp hlength)]
    rfl

/-! ## The voter is correct -/

/-- The counters never wrap: they hold the exact numbers of occurrences. -/
theorem voteCount_exact (hlength : values.length < 256) :
    (voteCount values).map UInt8.toNat = values.map values.count := by
  rw [voteCount, List.map_map]
  apply List.map_congr_left
  intro value _
  have hle : values.count value ≤ values.length := List.count_le_length
  rw [Function.comp_apply, UInt8.toNat_ofNat', Nat.mod_eq_of_lt (by omega)]

/-- The returned index is the position of the value it stands for. -/
theorem vote_index {nmr : UInt8} {result result' : Option Int32} {ret : Int8}
    (hlength : values.length ≤ nmr.toNat)
    (h : (vote nmr values result).result = .ok (ret, result')) (hret : 0 ≤ ret) :
    ∃ i : ℕ, ret.toInt = i ∧ values[i]? = result' := by
  have hshort := length_lt_of_le hlength
  by_cases hne : values = []
  · subst hne
    simp only [vote_nil, Outcome.pure_result, Except.ok.injEq, Prod.mk.injEq] at h
    rw [← h.1] at hret
    exact absurd hret (by decide)
  · obtain ⟨max, hmax, -, heq⟩ := vote_eq nmr hshort hne result
    rw [heq] at h
    split at h
    · simp only [Outcome.pure_result, Except.ok.injEq, Prod.mk.injEq] at h
      obtain ⟨rfl, rfl⟩ := h
      refine ⟨max, ?_, List.getElem?_eq_getElem hmax⟩
      -- an index of 128 or more would have come back negative
      have hindex : ∀ k : Fin 256, (0 : Int8) ≤ (UInt8.ofNat k).toInt8 →
          (UInt8.ofNat k).toInt8.toInt = (k : ℕ) := by decide +kernel
      exact hindex ⟨max, by omega⟩ hret
    · simp only [Outcome.pure_result, Except.ok.injEq, Prod.mk.injEq] at h
      rw [← h.1] at hret
      exact absurd hret (by decide)

/-- **The voter.**  On at most `nmr` values its loops end, no counter wraps, and the verdict is
the value with more than `nmr / 2` occurrences if there is one, with an index that survives
the conversion to `int8_t`. -/
theorem voteLoops_correct (nmr : UInt8) (values : List Int32)
    (hlength : values.length ≤ nmr.toNat) (result : Option Int32) :
    ∃ count ret result',
      (∀ fuel, values.length ≤ fuel → countAll values fuel = some count ∧
        voteLoops nmr values result fuel = some (ret, result')) ∧
      count.map UInt8.toNat = values.map values.count ∧
      (∀ v, (0 ≤ ret ∧ result' = some v) ↔ nmr.toNat / 2 < values.count v) ∧
      (∀ v w, nmr.toNat / 2 < values.count v → nmr.toNat / 2 < values.count w → v = w) ∧
      ((∀ v, ¬ nmr.toNat / 2 < values.count v) → ret = -1 ∧ result' = result) ∧
      (0 ≤ ret → ∃ i : ℕ, ret.toInt = i ∧ values[i]? = result') := by
  have hshort := length_lt_of_le hlength
  have hunique : ∀ v w, nmr.toNat / 2 < values.count v → nmr.toNat / 2 < values.count w → v = w :=
    fun v w hv hw => eq_of_wins hv hw hlength
  have hloops : ∀ {ret result'}, vote nmr values result = pure (ret, result') → ∀ fuel,
      values.length ≤ fuel → countAll values fuel = some (voteCount values) ∧
        voteLoops nmr values result fuel = some (ret, result') := by
    intro ret result' hvote fuel hfuel
    refine ⟨countAll_eq hshort hfuel, ?_⟩
    rw [voteLoops_eq nmr hfuel, hvote]
    rfl
  by_cases hsome : ∃ v, Wins (nmr.toNat / 2) v values
  · obtain ⟨v, hwins⟩ := hsome
    obtain ⟨ret, hret, hvote⟩ := vote_of_wins hlength hwins result
    refine ⟨voteCount values, ret, some v, hloops hvote, voteCount_exact hshort, ?_, hunique,
      fun hnone => absurd hwins (hnone v), ?_⟩
    · intro w
      constructor
      · rintro ⟨-, hw⟩
        rw [← Option.some.inj hw]
        exact hwins
      · intro hw
        exact ⟨hret, congrArg some (hunique v w hwins hw)⟩
    · exact vote_index hlength (by rw [hvote]; rfl)
  · have hnone : ∀ v, ¬ Wins (nmr.toNat / 2) v values := not_exists.mp hsome
    have hnegative : ¬ (0 : Int8) ≤ -1 := by decide
    refine ⟨voteCount values, -1, result, hloops (vote_of_no_winner hlength hnone result),
      voteCount_exact hshort, ?_, hunique, fun _ => ⟨rfl, rfl⟩, fun hret => absurd hret hnegative⟩
    intro v
    exact iff_of_false (fun h => hnegative h.1) (hnone v)

theorem voteLoops_correct_twoOfThree :
    ∃ count ret result', (∀ fuel, 3 ≤ fuel → countAll [4, 9, 9] fuel = some count ∧
        voteLoops 3 [4, 9, 9] none fuel = some (ret, result')) ∧
      count.map UInt8.toNat = [1, 2, 2] ∧ ret = 1 ∧ result' = some 9 := by
  obtain ⟨count, ret, result', hloops, hcount, -⟩ :=
    voteLoops_correct 3 [4, 9, 9] (by decide) none
  have hthree := (hloops 3 (by decide)).2
  have hvote : voteLoops 3 [4, 9, 9] none 3 = some (1, some 9) := by decide +kernel
  have heq := Option.some.inj (hvote.symm.trans hthree)
  exact ⟨count, ret, result', hloops, hcount, (Prod.mk.inj heq).1.symm,
    (Prod.mk.inj heq).2.symm⟩

end ReliableService
