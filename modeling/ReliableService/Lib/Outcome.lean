import Mathlib.Data.List.Induction
import Mathlib.Data.List.TakeWhile

/-!
# Computations that send messages and may fail

An `Outcome ω ε α` is what a run of a program leaves behind: the messages it has
sent, in order, and either the value it returns or the way it failed.  Messages
sent before a failure stay sent; that is the one difference from a writer stacked
under `Except`, and the reason for a type of its own.

The rules come in five groups:

* `bind_result_ok`, `bind_sent_of_ok` take one `do` step apart;
* `foldlM_invariant` is the loop rule, `foldlM_invariant_prefix` the one for properties of the
  iterations so far, and `exists_step_of_mem_foldlM_sent` and
  `exists_step_of_foldlM_error` find the iteration that sent a message or failed;
* `Ends` follows a computation together with everything sent so far, through its failures
  too (`ends_bind`, `ends_foldlM`);
* `Fatal` is for a message that is the last thing a computation does (`Fatal.bind`,
  `fatal_foldlM`);
* `gate p e` cuts a computation off at the first message `p` refuses and fails
  with `e` there.  It is a monad morphism (`gate_bind`), so a program whose only
  guarded primitive is its send is the `gate` of the unguarded program.
-/

universe u v w

/-- The messages a computation sends, and what it returns or how it fails. -/
structure Outcome (ω : Type u) (ε : Type v) (α : Type w) where
  sent : List ω
  result : Except ε α

namespace Outcome

variable {ω : Type u} {ε : Type v} {α β γ : Type w}

@[ext] theorem ext' {m m' : Outcome ω ε α} (hsent : m.sent = m'.sent)
    (hresult : m.result = m'.result) : m = m' := by
  cases m
  cases m'
  simp_all

instance : Monad (Outcome ω ε) where
  pure a := ⟨[], .ok a⟩
  bind m f :=
    match m.result with
    | .ok a => ⟨m.sent ++ (f a).sent, (f a).result⟩
    | .error e => ⟨m.sent, .error e⟩

/-- Send one message. -/
def tell (o : ω) : Outcome ω ε PUnit := ⟨[o], .ok ⟨⟩⟩

/-- Fail without sending anything. -/
def fail (e : ε) : Outcome ω ε α := ⟨[], .error e⟩

@[simp] theorem pure_sent (a : α) : (pure a : Outcome ω ε α).sent = [] := rfl

@[simp] theorem pure_result (a : α) : (pure a : Outcome ω ε α).result = .ok a := rfl

@[simp] theorem tell_sent (o : ω) : (tell o : Outcome ω ε PUnit).sent = [o] := rfl

@[simp] theorem tell_result (o : ω) : (tell o : Outcome ω ε PUnit).result = .ok ⟨⟩ := rfl

@[simp] theorem fail_sent (e : ε) : (fail e : Outcome ω ε α).sent = [] := rfl

@[simp] theorem fail_result (e : ε) : (fail e : Outcome ω ε α).result = .error e := rfl

/-! ## One step -/

theorem bind_of_ok {m : Outcome ω ε α} {a : α} (h : m.result = .ok a)
    (f : α → Outcome ω ε β) : m >>= f = ⟨m.sent ++ (f a).sent, (f a).result⟩ := by
  show (match m.result with | .ok a => _ | .error e => _) = _
  rw [h]

theorem bind_of_error {m : Outcome ω ε α} {e : ε} (h : m.result = .error e)
    (f : α → Outcome ω ε β) : m >>= f = ⟨m.sent, .error e⟩ := by
  show (match m.result with | .ok a => _ | .error e => _) = _
  rw [h]

@[simp] theorem pure_bind' (a : α) (f : α → Outcome ω ε β) :
    (pure a : Outcome ω ε α) >>= f = f a := by
  rw [bind_of_ok (pure_result a)]
  rfl

@[simp] theorem fail_bind (e : ε) (f : α → Outcome ω ε β) :
    (fail e : Outcome ω ε α) >>= f = fail e := rfl

theorem toOption_eq_some {m : Outcome ω ε α} {a : α} :
    m.result.toOption = some a ↔ m.result = .ok a := by
  cases m.result <;> simp [Except.toOption]

theorem bind_result_ok {m : Outcome ω ε α} {f : α → Outcome ω ε β} {b : β} :
    (m >>= f).result = .ok b ↔ ∃ a, m.result = .ok a ∧ (f a).result = .ok b := by
  cases h : m.result with
  | error e => simp [bind_of_error h]
  | ok a => simp [bind_of_ok h]

theorem bind_result_error {m : Outcome ω ε α} {f : α → Outcome ω ε β} {e : ε} :
    (m >>= f).result = .error e ↔
      m.result = .error e ∨ ∃ a, m.result = .ok a ∧ (f a).result = .error e := by
  cases h : m.result with
  | error e => simp [bind_of_error h]
  | ok a => simp [bind_of_ok h]

theorem bind_result_ne_error {m : Outcome ω ε α} {f : α → Outcome ω ε β} {e : ε}
    (hm : m.result ≠ .error e) (hf : ∀ a, m.result = .ok a → (f a).result ≠ .error e) :
    (m >>= f).result ≠ .error e := by
  intro h
  rcases bind_result_error.mp h with h | ⟨a, ha, h⟩
  · exact hm h
  · exact hf a ha h

theorem bind_sent_of_ok {m : Outcome ω ε α} {a : α} (h : m.result = .ok a)
    (f : α → Outcome ω ε β) : (m >>= f).sent = m.sent ++ (f a).sent := by
  rw [bind_of_ok h]

/-- A second half that sends nothing. -/
theorem bind_sent_of_quiet {m : Outcome ω ε α} {f : α → Outcome ω ε β}
    (hf : ∀ a, (f a).sent = []) : (m >>= f).sent = m.sent := by
  cases hm : m.result with
  | ok a => rw [bind_sent_of_ok hm, hf, List.append_nil]
  | error e => rw [bind_of_error hm]

theorem mem_bind_sent {m : Outcome ω ε α} {f : α → Outcome ω ε β} {o : ω} :
    o ∈ (m >>= f).sent ↔ o ∈ m.sent ∨ ∃ a, m.result = .ok a ∧ o ∈ (f a).sent := by
  cases h : m.result with
  | error e => simp [bind_of_error h]
  | ok a => simp [bind_of_ok h]

theorem bind_pure' (m : Outcome ω ε α) : m >>= pure = m := by
  cases h : m.result with
  | error e => rw [bind_of_error h]; exact ext' rfl h.symm
  | ok a => rw [bind_of_ok h]; exact ext' (by simp) h.symm

theorem bind_assoc' (m : Outcome ω ε α) (f : α → Outcome ω ε β) (g : β → Outcome ω ε γ) :
    m >>= f >>= g = m >>= fun a => f a >>= g := by
  cases h : m.result with
  | error e => rw [bind_of_error h, bind_of_error h, bind_of_error rfl]
  | ok a =>
      rw [bind_of_ok h, bind_of_ok h]
      cases h' : (f a).result with
      | error e => rw [bind_of_error (m := f a) h']; rfl
      | ok b => rw [bind_of_ok (m := f a) h']; exact ext' (List.append_assoc ..) rfl

instance : LawfulMonad (Outcome ω ε) :=
  LawfulMonad.mk' (Outcome ω ε) bind_pure' pure_bind' bind_assoc'

/-- A computation whose steps send nothing sends nothing. -/
theorem bind_sent_eq_nil {m : Outcome ω ε α} {f : α → Outcome ω ε β} (hm : m.sent = [])
    (hf : ∀ a, (f a).sent = []) : (m >>= f).sent = [] := by
  rw [bind_sent_of_quiet hf, hm]

@[simp] theorem map_sent {α β : Type w} (g : α → β) (m : Outcome ω ε α) :
    (g <$> m).sent = m.sent := by
  rw [← bind_pure_comp]
  cases h : m.result with
  | error e => rw [bind_of_error h]
  | ok a => rw [bind_of_ok h, pure_sent, List.append_nil]

/-! ## Loops -/

section Loops

variable {σ : Type w} {ι : Type*} {f : σ → ι → Outcome ω ε σ}

/-- The loop rule: what every iteration preserves holds at the end. -/
theorem foldlM_invariant {P : σ → Prop} {xs : List ι} {s t : σ}
    (hstep : ∀ s t, ∀ x ∈ xs, P s → (f s x).result = .ok t → P t) (hs : P s)
    (hrun : (xs.foldlM f s).result = .ok t) : P t := by
  induction xs generalizing s with
  | nil =>
      rw [List.foldlM_nil, pure_result, Except.ok.injEq] at hrun
      exact hrun ▸ hs
  | cons x xs ih =>
      rw [List.foldlM_cons, bind_result_ok] at hrun
      obtain ⟨u, hu, hrun⟩ := hrun
      exact ih (fun s t y hy => hstep s t y (List.mem_cons_of_mem x hy))
        (hstep s u x List.mem_cons_self hs hu) hrun

theorem foldlM_concat_ok {xs : List ι} {x : ι} {s t : σ} :
    ((xs ++ [x]).foldlM f s).result = .ok t ↔
      ∃ u, (xs.foldlM f s).result = .ok u ∧ (f u x).result = .ok t := by
  rw [List.foldlM_append, bind_result_ok]
  simp only [List.foldlM_cons, List.foldlM_nil, bind_pure]

/-- The loop rule for what depends on the iterations so far. -/
theorem foldlM_invariant_prefix {P : List ι → σ → Prop} {xs : List ι} {s t : σ}
    (hstep : ∀ before x u v, (before.foldlM f s).result = .ok u → P before u →
      (f u x).result = .ok v → P (before ++ [x]) v)
    (hs : P [] s) (hrun : (xs.foldlM f s).result = .ok t) : P xs t := by
  induction xs using List.reverseRecOn generalizing t with
  | nil =>
      rw [List.foldlM_nil, pure_result, Except.ok.injEq] at hrun
      exact hrun ▸ hs
  | append_singleton before x ih =>
      obtain ⟨u, hu, ht⟩ := foldlM_concat_ok.mp hrun
      exact hstep before x u t hu (ih hu) ht

/-- Every message of a loop was sent by one of its iterations. -/
theorem exists_step_of_mem_foldlM_sent {xs : List ι} {s : σ} {o : ω}
    (h : o ∈ (xs.foldlM f s).sent) :
    ∃ before x after t, xs = before ++ x :: after ∧
      (before.foldlM f s).result = .ok t ∧ o ∈ (f t x).sent := by
  induction xs generalizing s with
  | nil => simp at h
  | cons x xs ih =>
      rw [List.foldlM_cons, mem_bind_sent] at h
      rcases h with h | ⟨u, hu, h⟩
      · exact ⟨[], x, xs, s, rfl, rfl, h⟩
      · obtain ⟨before, y, after, t, rfl, hbefore, ho⟩ := ih h
        refine ⟨x :: before, y, after, t, rfl, ?_, ho⟩
        rw [List.foldlM_cons, bind_result_ok]
        exact ⟨u, hu, hbefore⟩

/-- A loop that fails does so in one of its iterations. -/
theorem exists_step_of_foldlM_error {xs : List ι} {s : σ} {e : ε}
    (h : (xs.foldlM f s).result = .error e) :
    ∃ before x after t, xs = before ++ x :: after ∧
      (before.foldlM f s).result = .ok t ∧ (f t x).result = .error e := by
  induction xs generalizing s with
  | nil => cases h
  | cons x xs ih =>
      rw [List.foldlM_cons, bind_result_error] at h
      rcases h with h | ⟨u, hu, h⟩
      · exact ⟨[], x, xs, s, rfl, rfl, h⟩
      · obtain ⟨before, y, after, t, rfl, hbefore, ho⟩ := ih h
        refine ⟨x :: before, y, after, t, rfl, ?_, ho⟩
        rw [List.foldlM_cons, bind_result_ok]
        exact ⟨u, hu, hbefore⟩

end Loops

/-! ## Running with a history -/

/-- After the messages `before`, the computation ends in `ok` if it returns, and in `bad`
if it fails; both speak of everything sent up to there. -/
def Ends (m : Outcome ω ε α) (before : List ω) (ok : α → List ω → Prop) (bad : List ω → Prop) :
    Prop :=
  match m.result with
  | .ok a => ok a (before ++ m.sent)
  | .error _ => bad (before ++ m.sent)

section Ends

variable {before : List ω} {ok : α → List ω → Prop} {bad : List ω → Prop}

theorem ends_of_ok {m : Outcome ω ε α} {a : α} (h : m.result = .ok a) :
    m.Ends before ok bad ↔ ok a (before ++ m.sent) := by
  rw [Ends, h]

theorem ends_of_error {m : Outcome ω ε α} {e : ε} (h : m.result = .error e) :
    m.Ends before ok bad ↔ bad (before ++ m.sent) := by
  rw [Ends, h]

theorem Ends.imp {m : Outcome ω ε α} {ok' : α → List ω → Prop} {bad' : List ω → Prop}
    (h : m.Ends before ok bad) (hok : ∀ a sent, ok a sent → ok' a sent)
    (hbad : ∀ sent, bad sent → bad' sent) : m.Ends before ok' bad' := by
  cases hresult : m.result with
  | error e => exact (ends_of_error hresult).mpr (hbad _ ((ends_of_error hresult).mp h))
  | ok a => exact (ends_of_ok hresult).mpr (hok a _ ((ends_of_ok hresult).mp h))

theorem ends_pure (a : α) : (pure a : Outcome ω ε α).Ends before ok bad ↔ ok a before := by
  rw [ends_of_ok (pure_result a), pure_sent, List.append_nil]

theorem ends_fail (e : ε) : (fail e : Outcome ω ε α).Ends before ok bad ↔ bad before := by
  rw [ends_of_error (fail_result e), fail_sent, List.append_nil]

theorem ends_bind {m : Outcome ω ε β} {f : β → Outcome ω ε α} :
    (m >>= f).Ends before ok bad ↔ m.Ends before (fun b sent => (f b).Ends sent ok bad) bad := by
  cases h : m.result with
  | error e => rw [ends_of_error h, bind_of_error h, ends_of_error rfl]
  | ok b =>
      rw [ends_of_ok h, bind_of_ok h, Ends, Ends]
      simp only [List.append_assoc]

/-- The loop rule with a history: `P` speaks of the iterations that are still to come. -/
theorem ends_foldlM {ι : Type*} {f : α → ι → Outcome ω ε α} {P : List ι → α → List ω → Prop}
    {xs : List ι} {a : α}
    (hstep : ∀ x rest a sent, P (x :: rest) a sent → (f a x).Ends sent (P rest) bad)
    (hstart : P xs a before) : (xs.foldlM f a).Ends before (P []) bad := by
  induction xs generalizing a before with
  | nil => exact (ends_pure a).mpr hstart
  | cons x xs ih =>
      rw [List.foldlM_cons, ends_bind]
      have hfirst := hstep x xs a before hstart
      cases h : (f a x).result with
      | error e => exact (ends_of_error h).mpr ((ends_of_error h).mp hfirst)
      | ok a' => exact (ends_of_ok h).mpr (ih ((ends_of_ok h).mp hfirst))

end Ends

/-! ## Messages that a computation does not outlive -/

/-- The computation returns what `P` allows only, and if it sends a message of `T` it ends with
`e`. -/
structure Fatal (T : ω → Prop) (e : ε) (P : α → Prop) (m : Outcome ω ε α) : Prop where
  returns : ∀ a, m.result = .ok a → P a
  ends : ∀ o ∈ m.sent, T o → m.result = .error e

section Fatal

variable {T : ω → Prop} {e : ε} {P : α → Prop}

theorem fatal_of_not_mem {m : Outcome ω ε α} (hreturns : ∀ a, m.result = .ok a → P a)
    (hsent : ∀ o ∈ m.sent, ¬ T o) : Fatal T e P m :=
  ⟨hreturns, fun o ho hT => absurd hT (hsent o ho)⟩

theorem fatal_pure {a : α} (h : P a) : Fatal T e P (pure a : Outcome ω ε α) := by
  refine fatal_of_not_mem (fun b hb => ?_) fun o ho => absurd ho List.not_mem_nil
  rw [← Except.ok.inj hb]
  exact h

theorem fatal_fail (e' : ε) : Fatal T e P (fail e' : Outcome ω ε α) := by
  refine fatal_of_not_mem (fun a ha => ?_) fun o ho => absurd ho List.not_mem_nil
  cases ha

theorem fatal_tell {o : ω} (h : ¬ T o) :
    Fatal T e (fun _ => True) (tell o : Outcome ω ε PUnit) := by
  refine fatal_of_not_mem (fun _ _ => trivial) fun o' ho' => ?_
  rwa [List.mem_singleton.mp ho']

theorem Fatal.bind {Q : β → Prop} {m : Outcome ω ε α} {f : α → Outcome ω ε β}
    (h : Fatal T e P m) (hf : ∀ a, P a → Fatal T e Q (f a)) : Fatal T e Q (m >>= f) := by
  cases hm : m.result with
  | error e' =>
      rw [bind_of_error hm]
      refine ⟨fun b hb => ?_, fun o ho hT => ?_⟩
      · cases hb
      · rw [Except.error.inj (hm.symm.trans (h.ends o ho hT))]
  | ok a =>
      have hrest := hf a (h.returns a hm)
      rw [bind_of_ok hm]
      refine ⟨hrest.returns, fun o ho hT => ?_⟩
      rcases List.mem_append.mp ho with ho | ho
      · have hend := h.ends o ho hT
        rw [hm] at hend
        cases hend
      · exact hrest.ends o ho hT

theorem fatal_foldlM {ι : Type*} {f : α → ι → Outcome ω ε α} {xs : List ι} {a : α}
    (hstep : ∀ a x, P a → Fatal T e P (f a x)) (h : P a) : Fatal T e P (xs.foldlM f a) := by
  induction xs generalizing a with
  | nil => exact fatal_pure h
  | cons x xs ih =>
      rw [List.foldlM_cons]
      exact (hstep a x h).bind fun b hb => ih hb

end Fatal

/-! ## Cutting a computation off at a refused message -/

/-- The computation as it runs when a send that `p` refuses fails with `e`. -/
def gate (p : ω → Bool) (e : ε) (m : Outcome ω ε α) : Outcome ω ε α :=
  ⟨m.sent.takeWhile p, if m.sent.all p then m.result else .error e⟩

variable {p : ω → Bool} {e : ε}

theorem gate_of_all {m : Outcome ω ε α} (h : ∀ o ∈ m.sent, p o) : gate p e m = m := by
  have hall : m.sent.all p = true := List.all_eq_true.mpr h
  refine ext' ?_ (by rw [gate, if_pos hall])
  exact List.takeWhile_eq_self_iff.mpr h

theorem gate_of_sent_nil {m : Outcome ω ε α} (h : m.sent = []) : gate p e m = m :=
  gate_of_all (by simp [h])

/-- A gated computation that returns has met no refusal. -/
theorem all_of_gate_result_ok {m : Outcome ω ε α} {a : α} (h : (gate p e m).result = .ok a) :
    ∀ o ∈ m.sent, p o := by
  rw [gate] at h
  split at h
  · rename_i hall
    exact List.all_eq_true.mp hall
  · cases h

theorem gate_result_of_refused {m : Outcome ω ε α} {o : ω} (ho : o ∈ m.sent) (hp : p o = false) :
    (gate p e m).result = .error e := by
  have hall : ¬ m.sent.all p = true := by
    intro h
    rw [List.all_eq_true.mp h o ho] at hp
    exact Bool.noConfusion hp
  rw [gate, if_neg hall]

theorem gate_tell (o : ω) :
    gate p e (tell o : Outcome ω ε PUnit) = if p o then tell o else fail e := by
  by_cases h : p o <;> simp [gate, tell, fail, h]

theorem gate_bind (m : Outcome ω ε α) (f : α → Outcome ω ε β) :
    gate p e (m >>= f) = gate p e m >>= fun a => gate p e (f a) := by
  by_cases hall : ∀ o ∈ m.sent, p o
  · rw [gate_of_all hall]
    have htake : m.sent.takeWhile p = m.sent := List.takeWhile_eq_self_iff.mpr hall
    have hall' : m.sent.all p = true := List.all_eq_true.mpr hall
    cases h : m.result with
    | error e' =>
        rw [bind_of_error h, bind_of_error h]
        exact gate_of_all hall
    | ok a =>
        rw [bind_of_ok h, bind_of_ok h]
        refine ext' ?_ (by simp [gate, hall'])
        simp only [gate]
        rw [List.takeWhile_append_of_pos hall]
  · obtain ⟨o, ho, hp⟩ := by simpa using hall
    have herror : (gate p e m).result = .error e := gate_result_of_refused ho hp
    rw [bind_of_error herror]
    have hmem : o ∈ (m >>= f).sent := mem_bind_sent.mpr (Or.inl ho)
    refine ext' ?_ (gate_result_of_refused hmem hp)
    show (m >>= f).sent.takeWhile p = m.sent.takeWhile p
    cases h : m.result with
    | error e' => rw [bind_of_error h]
    | ok a =>
        rw [bind_of_ok h, List.takeWhile_append, if_neg]
        intro hlen
        have := List.takeWhile_prefix p (l := m.sent)
        exact hall (List.takeWhile_eq_self_iff.mp (this.eq_of_length hlen))

theorem gate_foldlM {σ : Type w} {ι : Type*} (f : σ → ι → Outcome ω ε σ) (xs : List ι) (s : σ) :
    gate p e (xs.foldlM f s) = xs.foldlM (fun s x => gate p e (f s x)) s := by
  induction xs generalizing s with
  | nil => rfl
  | cons x xs ih =>
      rw [List.foldlM_cons, List.foldlM_cons, gate_bind]
      exact congrArg _ (funext ih)

end Outcome
