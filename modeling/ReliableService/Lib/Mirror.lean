import ReliableService.Lib.Outcome

/-!
# Two computations that do the same

`Mirrors R g m m'` says that `m` and `m'` send the same messages in the same order, and end alike:
with values that `R` relates, or with one fault, which `g` takes from the faults of `m'` to those
of `m`.  A fault that `g` does not make is one that `m` never ends with.

The two need not read the same input.  In `mirrors_foldlM_of_sent` an iteration of the second loop
is given what the first one makes of its own input, which may depend on the state (`views`).
-/

universe u v v' w w'

namespace Outcome

variable {ω : Type u} {ε : Type v} {ε' : Type v'} {α γ : Type w} {β δ : Type w'} {ι κ : Type*}

/-- A computation with its faults taken for others. -/
def mapFault (g : ε' → ε) (m : Outcome ω ε' α) : Outcome ω ε α :=
  ⟨m.sent, m.result.mapError g⟩

/-- The same messages and the same end. -/
structure Mirrors (R : α → β → Prop) (g : ε' → ε) (m : Outcome ω ε α) (m' : Outcome ω ε' β) :
    Prop where
  sent_eq : m.sent = m'.sent
  ok : ∀ b, m'.result = .ok b → ∃ a, m.result = .ok a ∧ R a b
  error : ∀ e, m'.result = .error e → m.result = .error (g e)

variable {R : α → β → Prop} {S : γ → δ → Prop} {g : ε' → ε} {m : Outcome ω ε α}
  {m' : Outcome ω ε' β}

theorem mirrors_pure {a : α} {b : β} (h : R a b) :
    Mirrors R g (pure a : Outcome ω ε α) (pure b) := by
  refine ⟨rfl, fun b' hb' => ⟨a, rfl, ?_⟩, fun e he => ?_⟩
  · rw [← Except.ok.inj hb']
    exact h
  · cases he

theorem mirrors_fail (e : ε') : Mirrors R g (fail (g e) : Outcome ω ε α) (fail e) := by
  refine ⟨rfl, fun b hb => ?_, fun e' he' => ?_⟩
  · cases hb
  · rw [← Except.error.inj he']
    rfl

theorem mirrors_tell (o : ω) {R : PUnit → PUnit → Prop} (h : R ⟨⟩ ⟨⟩) :
    Mirrors R g (tell o : Outcome ω ε PUnit) (tell o : Outcome ω ε' PUnit) := by
  refine ⟨rfl, fun b hb => ⟨⟨⟩, rfl, h⟩, fun e he => ?_⟩
  cases he

theorem mirrors_mapFault (m : Outcome ω ε' α) : Mirrors Eq g (mapFault g m) m := by
  refine ⟨rfl, fun b hb => ⟨b, ?_, rfl⟩, fun e he => ?_⟩
  · rw [mapFault, hb]
    rfl
  · rw [mapFault, he]
    rfl

theorem Mirrors.bind {k : α → Outcome ω ε γ} {k' : β → Outcome ω ε' δ} (h : Mirrors R g m m')
    (hk : ∀ a b, m.result = .ok a → R a b → Mirrors S g (k a) (k' b)) :
    Mirrors S g (m >>= k) (m' >>= k') := by
  cases hm' : m'.result with
  | error e =>
      rw [bind_of_error hm', bind_of_error (h.error e hm')]
      refine ⟨h.sent_eq, fun b hb => ?_, fun e' he' => ?_⟩
      · cases hb
      · rw [← Except.error.inj he']
  | ok b =>
      obtain ⟨a, hm, hab⟩ := h.ok b hm'
      obtain ⟨hsent, hok, herror⟩ := hk a b hm hab
      rw [bind_of_ok hm', bind_of_ok hm]
      exact ⟨congrArg₂ _ h.sent_eq hsent, hok, herror⟩

theorem mirrors_tell_bind (o : ω) {k : PUnit → Outcome ω ε γ} {k' : PUnit → Outcome ω ε' δ}
    (h : Mirrors S g (k ⟨⟩) (k' ⟨⟩)) : Mirrors S g (tell o >>= k) (tell o >>= k') :=
  (mirrors_tell o (R := fun _ _ => True) trivial).bind fun _ _ _ _ => h

/-- What the iterations of a loop make of their inputs. -/
def views (f : α → ι → Outcome ω ε α) (view : α → ι → κ) (a : α) : List ι → List κ
  | [] => []
  | x :: xs =>
      view a x ::
        match (f a x).result with
        | .ok a' => views f view a' xs
        | .error _ => []

/-- **The rule for loops**, where the first one sends what `P` allows only. -/
theorem mirrors_foldlM_of_sent {f : α → ι → Outcome ω ε α} {f' : β → κ → Outcome ω ε' β}
    {view : α → ι → κ} {P : ω → Prop} (hstep : ∀ a b x, R a b → (∀ o ∈ (f a x).sent, P o) →
      Mirrors R g (f a x) (f' b (view a x)))
    {a : α} {b : β} (h : R a b) {xs : List ι} (hsent : ∀ o ∈ (xs.foldlM f a).sent, P o) :
    Mirrors R g (xs.foldlM f a) ((views f view a xs).foldlM f' b) := by
  induction xs generalizing a b with
  | nil => exact mirrors_pure h
  | cons x xs ih =>
      rw [List.foldlM_cons] at hsent
      have hfirst := hstep a b x h fun o ho => hsent o (mem_bind_sent.mpr (.inl ho))
      rw [views, List.foldlM_cons, List.foldlM_cons]
      cases hb : (f' b (view a x)).result with
      | error e =>
          rw [bind_of_error hb, bind_of_error (hfirst.error e hb)]
          refine ⟨hfirst.sent_eq, fun b' hb' => ?_, fun e' he' => ?_⟩
          · cases hb'
          · rw [← Except.error.inj he']
      | ok b' =>
          obtain ⟨a', ha', hab⟩ := hfirst.ok b' hb
          obtain ⟨hrest, hok, herror⟩ :=
            ih hab fun o ho => hsent o (mem_bind_sent.mpr (.inr ⟨a', ha', ho⟩))
          rw [ha', bind_of_ok hb, bind_of_ok ha']
          exact ⟨congrArg₂ _ hfirst.sent_eq hrest, hok, herror⟩

end Outcome
