import Mathlib.Data.Option.Basic
import Mathlib.Tactic.Common

/-!
# Counting loops over a machine index

`forLoop cond next body fuel i s` is the loop `for (; cond i; i = next i) s = body i s`,
given up after `fuel` iterations.  The body may give up as well, so loops nest.

An index of a fixed width comes round again, and a loop over one need not end.  Hence two
rules: `forLoop_spec` numbers the values the index takes and runs an invariant along them,
and `forLoop_endless` is for a condition that no value of the index falsifies.
-/

section

variable {ι σ : Type*}

/-- `for (; cond i; i = next i) s = body i s` -/
def forLoop (cond : ι → Bool) (next : ι → ι) (body : ι → σ → Option σ) : ℕ → ι → σ → Option σ
  | 0, i, s => if cond i then none else some s
  | fuel + 1, i, s =>
      if cond i then (body i s).bind (forLoop cond next body fuel (next i)) else some s

variable {cond : ι → Bool} {next : ι → ι} {body : ι → σ → Option σ} {fuel : ℕ}

/-- **The loop rule.**  `index` lists the values of the index up to the first one that leaves
the loop, and `P k` holds after `k` iterations. -/
theorem forLoop_spec {P : ℕ → σ → Prop} {index : ℕ → ι} {n : ℕ} {s : σ}
    (hnext : ∀ k < n, next (index k) = index (k + 1)) (hcond : ∀ k < n, cond (index k) = true)
    (hend : cond (index n) = false) (hfuel : n ≤ fuel)
    (hbody : ∀ k < n, ∀ s, P k s → ∃ t, body (index k) s = some t ∧ P (k + 1) t) (hs : P 0 s) :
    ∃ t, forLoop cond next body fuel (index 0) s = some t ∧ P n t := by
  have hrest : ∀ m k fuel s, k + m = n → m ≤ fuel → P k s →
      ∃ t, forLoop cond next body fuel (index k) s = some t ∧ P n t := by
    intro m
    induction m with
    | zero =>
        intro k fuel s hk _ hs
        obtain rfl : k = n := hk
        refine ⟨s, ?_, hs⟩
        cases fuel <;> simp [forLoop, hend]
    | succ m ih =>
        intro k fuel s hk hfuel hs
        obtain ⟨fuel, rfl⟩ := Nat.exists_eq_succ_of_ne_zero (Nat.ne_zero_of_lt hfuel)
        have hlt : k < n := by omega
        obtain ⟨u, hu, hP⟩ := hbody k hlt s hs
        obtain ⟨t, ht, hn⟩ := ih (k + 1) fuel u (by omega) (Nat.le_of_succ_le_succ hfuel) hP
        refine ⟨t, ?_, hn⟩
        rw [forLoop, if_pos (hcond k hlt), hu, Option.bind_some, hnext k hlt, ht]
  exact hrest n 0 fuel s (Nat.zero_add n) hfuel hs

/-- A loop that ends does so in the same way when it may go on for longer. -/
theorem forLoop_of_le {fuel' : ℕ} {i : ι} {s t : σ}
    (h : forLoop cond next body fuel i s = some t) (hle : fuel ≤ fuel') :
    forLoop cond next body fuel' i s = some t := by
  induction fuel generalizing fuel' i s with
  | zero =>
      rw [forLoop] at h
      split at h
      · cases h
      · rename_i hcond
        cases fuel' <;> rw [forLoop, if_neg hcond, h]
  | succ fuel ih =>
      obtain ⟨fuel', rfl⟩ := Nat.exists_eq_succ_of_ne_zero (Nat.ne_zero_of_lt hle)
      rw [forLoop] at h ⊢
      split at h
      · rename_i hcond
        obtain ⟨u, hu, h⟩ := Option.bind_eq_some_iff.mp h
        rw [if_pos hcond, hu, Option.bind_some]
        exact ih h (Nat.le_of_succ_le_succ hle)
      · rename_i hcond
        rw [if_neg hcond, h]

/-- A condition that holds of every index never lets the loop end. -/
theorem forLoop_endless (hcond : ∀ i, cond i = true) (i : ι) (s : σ) :
    forLoop cond next body fuel i s = none := by
  induction fuel generalizing i s with
  | zero => rw [forLoop, if_pos (hcond i)]
  | succ fuel ih =>
      rw [forLoop, if_pos (hcond i)]
      cases hbody : body i s with
      | none => rfl
      | some t => exact ih (next i) t

end
