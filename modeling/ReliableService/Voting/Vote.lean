import Mathlib.Data.List.GetD
import ReliableService.Lib.Majority
import ReliableService.Model.Broker

/-!
# What the voter decides

`vote` counts in `uint8_t`, takes the first index of a largest count and returns it as
an `int8_t`.  Two facts make that a vote against the threshold `nmr / 2`:

* a count above the threshold belongs to the value at the returned index
  (`vote_sound`, for any list on which `vote` returns at all);
* when no more than `nmr` copies have answered, a winner is the only one and its first
  index stays below 128, so the narrowing keeps its sign (`vote_of_wins`).
-/

namespace ReliableService

open Majority

/-! ## The index of a largest count -/

private theorem foldl_voteMax (count : List UInt8) (n : ℕ) :
    let max := (List.range n).foldl
      (fun max i => if count.getD max 0 < count.getD i 0 then i else max) 0
    (max = 0 ∨ max < n) ∧ (∀ i < n, count.getD i 0 ≤ count.getD max 0) ∧
      ∀ i < max, count.getD i 0 < count.getD max 0 := by
  induction n with
  | zero => simp
  | succ n ih =>
      obtain ⟨hlt, hall, hfirst⟩ := ih
      simp only [List.range_succ, List.foldl_append, List.foldl_cons, List.foldl_nil]
      generalize (List.range n).foldl
        (fun max i => if count.getD max 0 < count.getD i 0 then i else max) 0 = max at *
      by_cases hnew : count.getD max 0 < count.getD n 0
      · rw [if_pos hnew]
        refine ⟨Or.inr n.lt_succ_self, fun i hi => ?_,
          fun i hi => UInt8.lt_of_le_of_lt (hall i hi) hnew⟩
        rcases Nat.lt_succ_iff_lt_or_eq.mp hi with hi | rfl
        · exact UInt8.le_of_lt (UInt8.lt_of_le_of_lt (hall i hi) hnew)
        · exact UInt8.le_refl _
      · rw [if_neg hnew]
        refine ⟨hlt.imp_right fun h => h.trans n.lt_succ_self, ?_, hfirst⟩
        intro i hi
        rcases Nat.lt_succ_iff_lt_or_eq.mp hi with hi | rfl
        · exact hall i hi
        · exact UInt8.not_lt.mp hnew

theorem voteMax_lt {count : List UInt8} (h : count ≠ []) : voteMax count < count.length := by
  have hpos := List.length_pos_iff.mpr h
  rcases (foldl_voteMax count count.length).1 with hzero | hlt
  · exact (show voteMax count = 0 from hzero) ▸ hpos
  · exact hlt

/-- The returned index is the first one among the largest counts. -/
theorem voteMax_le_of_max {count : List UInt8} {p : ℕ} (hp : p < count.length)
    (hmax : ∀ i < count.length, count.getD i 0 ≤ count.getD p 0) : voteMax count ≤ p := by
  by_contra hlt
  have hfirst := (foldl_voteMax count count.length).2.2 p (Nat.lt_of_not_le hlt)
  have hle := hmax (voteMax count) (voteMax_lt (List.length_pos_iff.mp (Nat.zero_lt_of_lt hp)))
  exact absurd hfirst (UInt8.not_lt.mpr hle)

/-! ## The counts -/

theorem voteCount_getD {values : List Int32} (hlength : values.length < 256) {i : ℕ}
    (hi : i < values.length) :
    ((voteCount values).getD i 0).toNat = values.count values[i] := by
  have hcount : values.count values[i] < 256 :=
    Nat.lt_of_le_of_lt List.count_le_length hlength
  rw [voteCount, List.getD_eq_getElem _ _ (by simpa using hi), List.getElem_map,
    UInt8.toNat_ofNat', Nat.mod_eq_of_lt hcount]

/-- `vote` on a list it can finish, with the chosen index made explicit. -/
theorem vote_eq (nmr : UInt8) {values : List Int32} (hlength : values.length < 256)
    (hne : values ≠ []) (result : Option Int32) :
    ∃ max, ∃ h : max < values.length, max = voteMax (voteCount values) ∧
      vote nmr values result =
        if Wins (nmr.toNat / 2) values[max] values then
          pure ((UInt8.ofNat max).toInt8, some values[max])
        else pure (-1, result) := by
  have hcount : voteCount values ≠ [] := by simpa [voteCount] using hne
  have hlen : (voteCount values).length = values.length := by simp [voteCount]
  have hlt : voteMax (voteCount values) < values.length := hlen ▸ voteMax_lt hcount
  refine ⟨_, hlt, rfl, ?_⟩
  have hget := voteCount_getD hlength hlt
  rw [List.getD_eq_getElem _ _ (hlen ▸ hlt)] at hget
  rw [vote, if_neg (by omega)]
  simp only [List.getElem?_eq_getElem (hlen ▸ hlt), List.getElem?_eq_getElem hlt, hget]
  rfl

theorem vote_nil (nmr : UInt8) (result : Option Int32) : vote nmr [] result = pure (-1, result) :=
  rfl

/-! ## Soundness -/

/-- **A non-negative answer names a winner**, whatever the list. -/
theorem vote_sound {nmr : UInt8} {values : List Int32} {result result' : Option Int32}
    {ret : Int8} (h : (vote nmr values result).result = .ok (ret, result')) (hret : 0 ≤ ret) :
    ∃ v, result' = some v ∧ Wins (nmr.toNat / 2) v values := by
  by_cases hlength : values.length < 256
  · by_cases hne : values = []
    · subst hne
      simp only [vote_nil, Outcome.pure_result, Except.ok.injEq, Prod.mk.injEq] at h
      rw [← h.1] at hret
      exact absurd hret (by decide)
    · obtain ⟨max, hmax, -, heq⟩ := vote_eq nmr hlength hne result
      rw [heq] at h
      split at h
      · rename_i hwins
        simp only [Outcome.pure_result, Except.ok.injEq, Prod.mk.injEq] at h
        exact ⟨_, h.2.symm, hwins⟩
      · simp only [Outcome.pure_result, Except.ok.injEq, Prod.mk.injEq] at h
        rw [← h.1] at hret
        exact absurd hret (by decide)
  · rw [vote, if_pos (by omega)] at h
    simp at h

/-- `vote` sends nothing. -/
@[simp] theorem vote_sent (nmr : UInt8) (values : List Int32) (result : Option Int32) :
    (vote nmr values result).sent = [] := by
  rw [vote]
  split
  · rfl
  · simp only
    split
    · split <;> rfl
    · rfl

/-! ## The decision when at most `nmr` copies have answered -/

theorem length_lt_of_le {nmr : UInt8} {values : List Int32} (h : values.length ≤ nmr.toNat) :
    values.length < 256 :=
  calc values.length ≤ nmr.toNat := h
    _ < 256 := nmr.toNat_lt

theorem eq_of_wins {nmr : UInt8} {values : List Int32} {v w : Int32}
    (hv : Wins (nmr.toNat / 2) v values) (hw : Wins (nmr.toNat / 2) w values)
    (h : values.length ≤ nmr.toNat) : v = w :=
  hv.unique hw (by omega)

theorem vote_of_no_winner {nmr : UInt8} {values : List Int32}
    (h : values.length ≤ nmr.toNat) (hnone : ∀ v, ¬ Wins (nmr.toNat / 2) v values)
    (result : Option Int32) : vote nmr values result = pure (-1, result) := by
  by_cases hne : values = []
  · rw [hne, vote_nil]
  · obtain ⟨max, hmax, -, heq⟩ := vote_eq nmr (length_lt_of_le h) hne result
    rw [heq, if_neg (hnone _)]

/-- **A winner is returned**, and the `int8_t` it is returned with is not negative. -/
theorem vote_of_wins {nmr : UInt8} {values : List Int32} {v : Int32}
    (h : values.length ≤ nmr.toNat) (hwins : Wins (nmr.toNat / 2) v values)
    (result : Option Int32) :
    ∃ ret : Int8, 0 ≤ ret ∧ vote nmr values result = pure (ret, some v) := by
  have hlength := length_lt_of_le h
  have hne : values ≠ [] := List.ne_nil_of_mem hwins.mem
  have hidx : values.idxOf v < values.length := List.idxOf_lt_length_iff.mpr hwins.mem
  have hlen : (voteCount values).length = values.length := by simp [voteCount]
  obtain ⟨max, hmax, hdef, heq⟩ := vote_eq nmr hlength hne result
  -- every count is at most the winner's, so the search stops at or before its first index
  have hall : ∀ i < (voteCount values).length,
      (voteCount values).getD i 0 ≤ (voteCount values).getD (values.idxOf v) 0 := by
    intro i hi
    rw [hlen] at hi
    rw [UInt8.le_iff_toNat_le, voteCount_getD hlength hi, voteCount_getD hlength hidx,
      List.getElem_idxOf]
    by_cases hi' : values[i] = v
    · rw [hi']
    · have := count_add_count_le hi' values
      unfold Wins at hwins
      omega
  have hle : max ≤ values.idxOf v := hdef ▸ voteMax_le_of_max (hlen ▸ hidx) hall
  have hmaxWins : Wins (nmr.toNat / 2) values[max] values := by
    have hge : (voteCount values).getD (values.idxOf v) 0 ≤ (voteCount values).getD max 0 := by
      rw [hdef]
      exact (foldl_voteMax (voteCount values) _).2.1 _ (hlen ▸ hidx)
    rw [UInt8.le_iff_toNat_le, voteCount_getD hlength hidx, voteCount_getD hlength hmax,
      List.getElem_idxOf] at hge
    exact Nat.lt_of_lt_of_le hwins hge
  have hvalue : values[max] = v := eq_of_wins hmaxWins hwins h
  have hearly := hwins.idxOf_lt
  have hsmall : max < 128 := by
    have := nmr.toNat_lt
    omega
  refine ⟨(UInt8.ofNat max).toInt8, ?_, by rw [heq, if_pos hmaxWins, hvalue]⟩
  have : ∀ k : Fin 128, (0 : Int8) ≤ (UInt8.ofNat k).toInt8 := by decide +kernel
  exact this ⟨max, hsmall⟩

end ReliableService
