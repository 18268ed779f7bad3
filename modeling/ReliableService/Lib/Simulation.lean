import ReliableService.Lib.Machine

/-!
# Simulation

A machine is compared with a model every step of which is possible.  `view` says which step of the
model a step of the machine stands for; it may look at the state.  The two are compared by what is
seen of each step, so that a simulation gives equal traces (`Simulates.run`), not only related
states.
-/

namespace Machine

variable {σ ι τ α ω : Type*}

/-- What is seen of a run, step by step. -/
def trace (step : σ → ι → Option σ) (see : σ → ι → ω) (s : σ) : List ι → List ω
  | [] => []
  | x :: xs => see s x :: (step s x).elim [] fun t => trace step see t xs

/-- What is seen of a run that cannot stop. -/
def traceOf (next : τ → α → τ) (see : τ → α → ω) (t : τ) : List α → List ω
  | [] => []
  | a :: as => see t a :: traceOf next see (next t a) as

/-- Every step that meets the condition is seen as the model's step, and the states stay related. -/
def Simulates (step : σ → ι → Option σ) (see : σ → ι → ω) (C : σ → ι → Prop) (next : τ → α → τ)
    (see' : τ → α → ω) (view : σ → ι → α) (R : σ → τ → Prop) : Prop :=
  ∀ s t x s', R s t → C s x → step s x = some s' →
    see s x = see' t (view s x) ∧ R s' (next t (view s x))

variable {step : σ → ι → Option σ} {see : σ → ι → ω} {C : σ → ι → Prop} {next : τ → α → τ}
  {see' : τ → α → ω} {view : σ → ι → α} {R : σ → τ → Prop}

/-- **A simulation lifts to runs.** -/
theorem Simulates.run (h : Simulates step see C next see' view R) {s s' : σ} {t : τ} {xs : List ι}
    (hR : R s t) (halong : Along step C s xs) (hrun : Machine.run step s xs = some s') :
    trace step see s xs = traceOf next see' t (trace step view s xs) ∧
      R s' ((trace step view s xs).foldl next t) := by
  induction xs generalizing s t with
  | nil =>
      rw [run_nil, Option.some.injEq] at hrun
      exact ⟨rfl, hrun ▸ hR⟩
  | cons x xs ih =>
      obtain ⟨u, hu, hrun⟩ := run_cons_eq_some.mp hrun
      obtain ⟨hsee, hnext⟩ := h s t x u hR halong.1 hu
      obtain ⟨htrace, hfinal⟩ := ih hnext (halong.2 u hu) hrun
      simp only [trace, hu, Option.elim_some, traceOf, List.foldl_cons]
      exact ⟨by rw [hsee, htrace], hfinal⟩

end Machine
