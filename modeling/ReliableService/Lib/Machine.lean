import Mathlib.Data.List.Basic
import Mathlib.Data.Option.Basic

/-!
# Runs of a partial step function

A machine is a function `step : σ → ι → Option σ`; `none` says that the step is not
possible in this state.  A run is a list of steps.

`Along C s xs` says that every step the run takes meets `C`, a condition on the state
before the step and the step itself.  `run_invariant` is the induction every invariant of
such runs goes through: an invariant may use `C` in each step and need not imply it.

`withGhost` adds a variable the machine does not look at, for properties that speak about
the past of a run.
-/

namespace Machine

variable {σ ι : Type*} {step : σ → ι → Option σ}

/-- The state after a run, if every step of it is possible. -/
def run (step : σ → ι → Option σ) (s : σ) (xs : List ι) : Option σ := xs.foldlM step s

/-- Every step of the run meets the condition. -/
def Along (step : σ → ι → Option σ) (C : σ → ι → Prop) (s : σ) : List ι → Prop
  | [] => True
  | x :: xs => C s x ∧ ∀ t, step s x = some t → Along step C t xs

@[simp] theorem run_nil (s : σ) : run step s [] = some s := rfl

theorem run_cons (s : σ) (x : ι) (xs : List ι) :
    run step s (x :: xs) = (step s x).bind fun t => run step t xs := rfl

theorem run_cons_eq_some {s t : σ} {x : ι} {xs : List ι} :
    run step s (x :: xs) = some t ↔ ∃ u, step s x = some u ∧ run step u xs = some t := by
  rw [run_cons, Option.bind_eq_some_iff]

theorem run_append_of_run {s t : σ} {xs : List ι} (h : run step s xs = some t) (rest : List ι) :
    run step s (xs ++ rest) = run step t rest := by
  rw [run, List.foldlM_append, ← run, h]
  rfl

variable {C : σ → ι → Prop}

instance Along.decidable [∀ s x, Decidable (C s x)] :
    ∀ (s : σ) (xs : List ι), Decidable (Along step C s xs)
  | _, [] => inferInstanceAs (Decidable True)
  | s, x :: xs =>
      match h : step s x with
      | none => decidable_of_iff (C s x) (by simp [Along, h])
      | some t =>
          have := Along.decidable t xs
          decidable_of_iff (C s x ∧ Along step C t xs) (by simp [Along, h])

theorem along_of_forall (hall : ∀ s x, C s x) (s : σ) (xs : List ι) : Along step C s xs := by
  induction xs generalizing s with
  | nil => trivial
  | cons x xs ih => exact ⟨hall s x, fun t _ => ih t⟩

/-- The condition at one place of the run. -/
theorem Along.at {s t : σ} {x : ι} {xs rest : List ι} (h : Along step C s (xs ++ x :: rest))
    (hrun : run step s xs = some t) : C t x := by
  induction xs generalizing s with
  | nil =>
      obtain rfl : s = t := Option.some.inj hrun
      exact h.1
  | cons y xs ih =>
      obtain ⟨u, hu, hrun⟩ := run_cons_eq_some.mp hrun
      exact ih (h.2 u hu) hrun

theorem Along.of_append {s : σ} {xs rest : List ι} (h : Along step C s (xs ++ rest)) :
    Along step C s xs := by
  induction xs generalizing s with
  | nil => trivial
  | cons x xs ih => exact ⟨h.1, fun t ht => ih (h.2 t ht)⟩

theorem Along.and {C' : σ → ι → Prop} {s : σ} {xs : List ι} (h : Along step C s xs)
    (h' : Along step C' s xs) : Along step (fun s x => C s x ∧ C' s x) s xs := by
  induction xs generalizing s with
  | nil => trivial
  | cons x xs ih => exact ⟨⟨h.1, h'.1⟩, fun t ht => ih (h.2 t ht) (h'.2 t ht)⟩

/-- A condition on the steps themselves. -/
theorem along_of_forall_mem {D : ι → Prop} {xs : List ι} (h : ∀ x ∈ xs, D x) (s : σ) :
    Along step (fun _ x => D x) s xs := by
  induction xs generalizing s with
  | nil => trivial
  | cons x xs ih =>
      exact ⟨h x List.mem_cons_self, fun t _ => ih (fun y hy => h y (List.mem_cons_of_mem x hy)) t⟩

/-- **The run rule.** -/
theorem run_invariant {P : σ → Prop} (hstep : ∀ s x t, P s → C s x → step s x = some t → P t)
    {s t : σ} {xs : List ι} (hs : P s) (halong : Along step C s xs)
    (hrun : run step s xs = some t) : P t := by
  induction xs generalizing s with
  | nil =>
      rw [run_nil, Option.some.injEq] at hrun
      exact hrun ▸ hs
  | cons x xs ih =>
      obtain ⟨u, hu, hrun⟩ := run_cons_eq_some.mp hrun
      exact ih (hstep s x u hs halong.1 hu) (halong.2 u hu) hrun

/-- **The run rule for what depends on the steps taken.** -/
theorem run_invariant_past {P : List ι → σ → Prop}
    (hstep : ∀ past s x t, P past s → C s x → step s x = some t → P (past ++ [x]) t)
    {s t : σ} {past xs : List ι} (hs : P past s) (halong : Along step C s xs)
    (hrun : run step s xs = some t) : P (past ++ xs) t := by
  induction xs generalizing s past with
  | nil =>
      rw [run_nil, Option.some.injEq] at hrun
      rw [List.append_nil, ← hrun]
      exact hs
  | cons x xs ih =>
      obtain ⟨u, hu, hrun⟩ := run_cons_eq_some.mp hrun
      rw [List.append_cons]
      exact ih (hstep past s x u hs halong.1 hu) (halong.2 u hu) hrun

/-- **The run rule for a quantity that the steps marked by `p` raise by one.** -/
theorem run_count {P : σ → Prop} {p : ι → Bool} {level : σ → ℕ}
    (hkeep : ∀ s x t, P s → step s x = some t → P t)
    (hlevel : ∀ s x t, P s → step s x = some t → level t = level s + if p x then 1 else 0)
    {s t : σ} {xs : List ι} (hs : P s) (hrun : run step s xs = some t) :
    level t = level s + xs.countP p := by
  induction xs generalizing s with
  | nil =>
      rw [run_nil, Option.some.injEq] at hrun
      rw [hrun, List.countP_nil, Nat.add_zero]
  | cons x xs ih =>
      obtain ⟨u, hu, hrun⟩ := run_cons_eq_some.mp hrun
      rw [ih (hkeep s x u hs hu) hrun, hlevel s x u hs hu, List.countP_cons, Nat.add_assoc,
        Nat.add_comm (if p x then 1 else 0)]

/-- **The rule for what every step of a run does.** -/
theorem along_of_invariant {P : σ → Prop} {D : σ → ι → Prop}
    (hstep : ∀ s x t, P s → C s x → step s x = some t → P t) (hdoes : ∀ s x, P s → C s x → D s x)
    {s : σ} {xs : List ι} (hs : P s) (halong : Along step C s xs) : Along step D s xs := by
  induction xs generalizing s with
  | nil => trivial
  | cons x xs ih =>
      exact ⟨hdoes s x hs halong.1, fun t ht =>
        ih (hstep s x t hs halong.1 ht) (halong.2 t ht)⟩

/-! ## Ghost variables -/

variable {γ : Type*} {update : σ → ι → γ → γ}

/-- The machine with a variable that follows the run and does not influence it. -/
def withGhost (step : σ → ι → Option σ) (update : σ → ι → γ → γ) (s : σ × γ) (x : ι) :
    Option (σ × γ) :=
  (step s.1 x).map fun t => (t, update s.1 x s.2)

theorem withGhost_eq_some {s t : σ × γ} {x : ι} :
    withGhost step update s x = some t ↔ step s.1 x = some t.1 ∧ t.2 = update s.1 x s.2 := by
  rw [withGhost, Option.map_eq_some_iff]
  constructor
  · rintro ⟨u, hu, rfl⟩
    exact ⟨hu, rfl⟩
  · rintro ⟨hu, hghost⟩
    exact ⟨t.1, hu, Prod.ext rfl hghost.symm⟩

/-- **The run rule with a ghost variable.** -/
theorem run_invariant_withGhost {D : σ × γ → ι → Prop} {P : γ → σ → Prop}
    (hstep : ∀ s g x t, P g s → C s x → D (s, g) x → step s x = some t → P (update s x g) t)
    {s t : σ} {g : γ} {xs : List ι} (hs : P g s) (halong : Along step C s xs)
    (hghost : Along (withGhost step update) D (s, g) xs) (hrun : run step s xs = some t) :
    ∃ g', P g' t := by
  induction xs generalizing s g with
  | nil =>
      rw [run_nil, Option.some.injEq] at hrun
      exact ⟨g, hrun ▸ hs⟩
  | cons x xs ih =>
      obtain ⟨u, hu, hrun⟩ := run_cons_eq_some.mp hrun
      exact ih (hstep s g x u hs halong.1 hghost.1 hu) (halong.2 u hu)
        (hghost.2 (u, update s x g) (withGhost_eq_some.mpr ⟨hu, rfl⟩)) hrun

/-- **The rule for what every step of a run does**, with a ghost variable. -/
theorem along_withGhost {D : σ × γ → ι → Prop} {P : γ → σ → Prop}
    (hstep : ∀ s g x t, P g s → C s x → step s x = some t → P (update s x g) t)
    (hdoes : ∀ s g x, P g s → C s x → D (s, g) x) {s : σ} {g : γ} {xs : List ι} (hs : P g s)
    (halong : Along step C s xs) : Along (withGhost step update) D (s, g) xs := by
  induction xs generalizing s g with
  | nil => trivial
  | cons x xs ih =>
      refine ⟨hdoes s g x hs halong.1, ?_⟩
      rintro ⟨t, g'⟩ ht
      obtain ⟨hnext, rfl⟩ := withGhost_eq_some.mp ht
      exact ih (hstep s g x t hs halong.1 hnext) (halong.2 t hnext)

end Machine
