import Mathlib.Data.Finset.Card
import Mathlib.Data.List.Count
import Mathlib.Data.List.Dedup
import Mathlib.Tactic.Common

/-!
# Votes decided by a fixed threshold

`Wins m v votes` says that `v` occurs more than `m` times.  The threshold is a
number of its own, not half the number of votes cast: a vote may be taken before
everybody has voted, and `m` then belongs to the full electorate.

* `Wins.unique`: at most one value wins while `votes.length ≤ 2 * m + 1`.
* `Wins.append`: a value that wins early wins at the end.
* `Wins.idxOf_lt`: a winner occurs early in the list.
* `Wins.eq_of_honest`: when at most `m` of the distinct voters lie, a winning
  value is the one the honest voters gave.
-/

namespace Majority

variable {α κ : Type*} [DecidableEq α]

/-- `v` occurs more than `m` times in `votes`. -/
def Wins (m : ℕ) (v : α) (votes : List α) : Prop := m < votes.count v

instance (m : ℕ) (v : α) (votes : List α) : Decidable (Wins m v votes) :=
  inferInstanceAs (Decidable (_ < _))

variable {m : ℕ} {v w : α} {votes : List α}

theorem Wins.mem (h : Wins m v votes) : v ∈ votes :=
  List.count_pos_iff.mp (Nat.zero_lt_of_lt h)

theorem Wins.lt_length (h : Wins m v votes) : m < votes.length :=
  calc m < votes.count v := h
    _ ≤ votes.length := List.count_le_length

theorem Wins.append (h : Wins m v votes) (more : List α) : Wins m v (votes ++ more) := by
  calc m < votes.count v := h
    _ ≤ votes.count v + more.count v := Nat.le_add_right ..
    _ = (votes ++ more).count v := List.count_append.symm

theorem Wins.perm {votes' : List α} (hperm : votes.Perm votes') (h : Wins m v votes) :
    Wins m v votes' := by
  unfold Wins at *
  rwa [← hperm.count_eq]

theorem count_add_count_le (hne : v ≠ w) (votes : List α) :
    votes.count v + votes.count w ≤ votes.length := by
  induction votes with
  | nil => simp
  | cons x votes ih =>
      simp only [List.count_cons, List.length_cons, beq_iff_eq]
      by_cases hv : x = v
      · rw [if_pos hv, if_neg (hv ▸ hne)]
        omega
      · rw [if_neg hv]
        split <;> omega

theorem Wins.unique (hv : Wins m v votes) (hw : Wins m w votes)
    (hlength : votes.length ≤ 2 * m + 1) : v = w := by
  by_contra hne
  have := count_add_count_le hne votes
  unfold Wins at *
  omega

/-- The first occurrence of a value leaves room for all its occurrences. -/
theorem idxOf_add_count_le (v : α) (votes : List α) :
    votes.idxOf v + votes.count v ≤ votes.length := by
  induction votes with
  | nil => simp
  | cons x votes ih =>
      by_cases hx : x = v
      · subst hx
        have := List.count_le_length (a := x) (l := votes)
        simp only [List.idxOf_cons_self, List.count_cons_self, List.length_cons]
        omega
      · rw [List.idxOf_cons_ne votes hx, List.count_cons_of_ne hx, List.length_cons]
        omega

/-- A winner's first occurrence is not preceded by enough votes to fill the list. -/
theorem Wins.idxOf_lt (h : Wins m v votes) : votes.idxOf v + m < votes.length := by
  have := idxOf_add_count_le v votes
  unfold Wins at h
  omega

/-! ## Lying voters -/

/-- A vote together with who cast it: at most `m` of the voters lie, every other
voter casts `good`, and nobody votes twice.  Then only `good` can win. -/
theorem Wins.eq_of_honest [DecidableEq κ] {ballots : List (κ × α)} {liars : Finset κ} {good : α}
    (hwins : Wins m v (ballots.map Prod.snd)) (hnodup : (ballots.map Prod.fst).Nodup)
    (hhonest : ∀ ballot ∈ ballots, ballot.1 ∉ liars → ballot.2 = good)
    (hliars : (liars.filter (· ∈ ballots.map Prod.fst)).card ≤ m) : v = good := by
  by_contra hne
  set forged := ballots.filter fun ballot => ballot.2 = v with hforged
  -- everybody who voted for `v` is a liar
  have hsubset : (forged.map Prod.fst).toFinset ⊆
      liars.filter (· ∈ ballots.map Prod.fst) := by
    intro x hx
    rw [List.mem_toFinset, List.mem_map] at hx
    obtain ⟨ballot, hballot, rfl⟩ := hx
    rw [hforged, List.mem_filter, decide_eq_true_eq] at hballot
    rw [Finset.mem_filter]
    refine ⟨?_, List.mem_map_of_mem hballot.1⟩
    by_contra hnot
    exact hne (hballot.2.symm.trans (hhonest ballot hballot.1 hnot))
  have hcard : (forged.map Prod.fst).toFinset.card = forged.length := by
    rw [List.toFinset_card_of_nodup (hnodup.sublist (List.filter_sublist.map _)), List.length_map]
  have hcount : (ballots.map Prod.snd).count v = forged.length := by
    rw [List.count, List.countP_map, List.countP_eq_length_filter, hforged]
    rfl
  apply absurd hwins
  apply not_lt.mpr
  calc (ballots.map Prod.snd).count v
      = (forged.map Prod.fst).toFinset.card := by rw [hcount, hcard]
    _ ≤ (liars.filter (· ∈ ballots.map Prod.fst)).card := Finset.card_le_card hsubset
    _ ≤ m := hliars

end Majority
