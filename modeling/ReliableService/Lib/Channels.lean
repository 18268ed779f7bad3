import Mathlib.Data.List.Forall2
import ReliableService.Lib.Outcome

/-!
# Messages of more than one kind

A program may send on several channels, and a part of it on one of them only.  `relay f m` is
the computation `m` with its messages handed on as `f` says; `only g m` is what an observer
sees who takes in the messages that `g` keeps.  Both leave the result alone and both are monad
morphisms, so a loop seen by such an observer is the loop of the observed bodies.

`Matches R m m'` is for two programs that do the same and say it differently: they end in the same
way, and their messages are related one by one.
-/

universe u v w

namespace Outcome

variable {ω ω' : Type u} {ε : Type v} {α β : Type w}

/-- The messages of a computation, handed on. -/
def relay (f : ω → ω') (m : Outcome ω ε α) : Outcome ω' ε α := ⟨m.sent.map f, m.result⟩

/-- The messages of a computation that an observer takes in. -/
def only (g : ω → Option ω') (m : Outcome ω ε α) : Outcome ω' ε α :=
  ⟨m.sent.filterMap g, m.result⟩

@[simp] theorem relay_result (f : ω → ω') (m : Outcome ω ε α) : (relay f m).result = m.result :=
  rfl

@[simp] theorem relay_sent (f : ω → ω') (m : Outcome ω ε α) : (relay f m).sent = m.sent.map f :=
  rfl

@[simp] theorem only_result (g : ω → Option ω') (m : Outcome ω ε α) :
    (only g m).result = m.result := rfl

@[simp] theorem only_sent (g : ω → Option ω') (m : Outcome ω ε α) :
    (only g m).sent = m.sent.filterMap g := rfl

variable {f : ω → ω'} {g : ω' → Option ω}

theorem only_bind (m : Outcome ω' ε α) (k : α → Outcome ω' ε β) :
    only g (m >>= k) = only g m >>= fun a => only g (k a) := by
  cases h : m.result with
  | error e =>
      have h' : (only g m).result = .error e := h
      rw [bind_of_error h, bind_of_error h']
      rfl
  | ok a =>
      have h' : (only g m).result = .ok a := h
      rw [bind_of_ok h, bind_of_ok h']
      exact ext' (List.filterMap_append ..) rfl

theorem only_foldlM {ι : Type*} (step : α → ι → Outcome ω' ε α) (xs : List ι) (a : α) :
    only g (xs.foldlM step a) = xs.foldlM (fun a x => only g (step a x)) a := by
  induction xs generalizing a with
  | nil => rfl
  | cons x xs ih =>
      rw [List.foldlM_cons, List.foldlM_cons, only_bind]
      exact congrArg _ (funext ih)

/-- What is handed on in a form the observer takes in arrives as it was. -/
theorem only_relay (h : ∀ o, g (f o) = some o) (m : Outcome ω ε α) :
    only g (relay f m) = m := by
  apply ext'
  · rw [only_sent, relay_sent, List.filterMap_map]
    have hsame : g ∘ f = some := funext h
    rw [hsame, List.filterMap_some]
  · rfl

/-- A message the observer does not take in does not show. -/
theorem only_tell_of_none {o : ω'} (h : g o = none) :
    only g (tell o : Outcome ω' ε PUnit) = pure ⟨⟩ := by
  apply ext'
  · rw [only_sent, tell_sent, List.filterMap_cons_none h]
    rfl
  · rfl

/-! ## Loops whose bodies do nothing for some indices -/

/-- A loop over the indices that do something. -/
theorem foldlM_filterMap {ι κ : Type*} {f : ι → Option κ} {step : α → κ → Outcome ω ε α}
    {body : α → ι → Outcome ω ε α} {P : α → Prop} {xs : List ι} {a : α}
    (hbody : ∀ a, P a → ∀ i ∈ xs, body a i = (f i).elim (pure a) (step a))
    (hkeep : ∀ a, P a → ∀ i k, f i = some k → ∀ b, (step a k).result = .ok b → P b) (ha : P a) :
    xs.foldlM body a = (xs.filterMap f).foldlM step a := by
  induction xs generalizing a with
  | nil => rfl
  | cons i xs ih =>
      have hrest : ∀ a, P a → xs.foldlM body a = (xs.filterMap f).foldlM step a := fun a ha =>
        ih (fun a ha j hj => hbody a ha j (List.mem_cons_of_mem i hj)) ha
      rw [List.foldlM_cons, hbody a ha i List.mem_cons_self]
      cases hk : f i with
      | none =>
          rw [List.filterMap_cons_none hk, Option.elim_none, pure_bind', hrest a ha]
      | some k =>
          rw [List.filterMap_cons_some hk, Option.elim_some, List.foldlM_cons]
          cases hstep : (step a k).result with
          | error e => rw [bind_of_error hstep, bind_of_error hstep]
          | ok b => rw [bind_of_ok hstep, bind_of_ok hstep, hrest b (hkeep a ha i k hk b hstep)]

/-! ## The same computation, put differently -/

/-- Both end in the same way, and the messages of one are those of the other as `R` says. -/
structure Matches (R : ω → ω' → Prop) (m : Outcome ω ε α) (m' : Outcome ω' ε α) : Prop where
  sent : List.Forall₂ R m.sent m'.sent
  result_eq : m'.result = m.result

section Matches

variable {R : ω → ω' → Prop} {m : Outcome ω ε α} {m' : Outcome ω' ε α}

theorem matches_pure (a : α) : Matches R (pure a : Outcome ω ε α) (pure a) := ⟨.nil, rfl⟩

theorem matches_fail (e : ε) : Matches R (fail e : Outcome ω ε α) (fail e) := ⟨.nil, rfl⟩

theorem matches_tell {o : ω} {o' : ω'} (h : R o o') :
    Matches R (tell o : Outcome ω ε PUnit) (tell o') := ⟨.cons h .nil, rfl⟩

/-- A computation that says nothing, and the same one with nobody listening. -/
theorem matches_of_silent (h : m.sent = []) : Matches R m (only (fun _ => none) m) := by
  refine ⟨?_, rfl⟩
  rw [h, only_sent, h]
  exact .nil

theorem Matches.bind {k : α → Outcome ω ε β} {k' : α → Outcome ω' ε β} (h : Matches R m m')
    (hk : ∀ a, m.result = .ok a → Matches R (k a) (k' a)) : Matches R (m >>= k) (m' >>= k') := by
  cases hm : m.result with
  | error e =>
      have hm' : m'.result = .error e := h.result_eq.trans hm
      rw [bind_of_error hm, bind_of_error hm']
      exact ⟨h.sent, rfl⟩
  | ok a =>
      have hm' : m'.result = .ok a := h.result_eq.trans hm
      rw [bind_of_ok hm, bind_of_ok hm']
      exact ⟨List.rel_append h.sent (hk a hm).sent, (hk a hm).result_eq⟩

/-- Loops whose bodies match, over lists that correspond. -/
theorem matches_foldlM {ι κ : Type*} {Q : ι → κ → Prop} {body : α → ι → Outcome ω ε α}
    {body' : α → κ → Outcome ω' ε α} {xs : List ι} {ys : List κ} (hxs : List.Forall₂ Q xs ys)
    (hbody : ∀ a x y, Q x y → Matches R (body a x) (body' a y)) (a : α) :
    Matches R (xs.foldlM body a) (ys.foldlM body' a) := by
  induction hxs generalizing a with
  | nil => exact matches_pure a
  | cons hx _ ih =>
      rw [List.foldlM_cons, List.foldlM_cons]
      exact (hbody a _ _ hx).bind fun b _ => ih b

end Matches

end Outcome
