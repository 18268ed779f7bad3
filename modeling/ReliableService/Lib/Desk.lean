import Mathlib.Data.Set.Insert
import ReliableService.Lib.Majority

/-!
# A desk that answers by majority

Clients ask a desk about a topic it offers, one question each.  A question is put to `n` voters.
The desk answers as soon as more than `n / 2` of them agree, refuses when all have voted and they
do not, and refuses too when the question has been open longer than its `patience`.

This is the purpose of such a service and nothing of how it is provided: no messages, no copies
that register or die, no tables.  Times are integers, and a client, a topic or a value may be
anything.
-/

/-- A question that is not answered yet. -/
structure Question (κ ν : Type*) where
  topic : κ
  deadline : ℤ
  votes : List ν

/-- What a client can be told. -/
inductive Verdict (ν : Type*)
  | decided (v : ν)
  | refused
  | unavailable
  deriving DecidableEq

/-- The topics on offer, and each client's question. -/
structure Desk (γ κ ν : Type*) where
  offered : Set κ
  opened : γ → Option (Question κ ν)

/-- What happens at the desk. -/
inductive DeskAction (γ κ ν : Type*)
  | offer (topic : κ)
  | ask (client : γ) (topic : κ) (now : ℤ)
  | vote (client : γ) (topic : κ) (value : ν)
  | tick (now : ℤ)
  | idle

/-- The same verdict on other values. -/
def Verdict.map {ν ν' : Type*} (f : ν → ν') : Verdict ν → Verdict ν'
  | .decided v => .decided (f v)
  | .refused => .refused
  | .unavailable => .unavailable

namespace Desk

open Majority Classical

variable {γ κ ν : Type*} [DecidableEq ν] {n : ℕ} {votes : List ν}

noncomputable section

/-- A desk that offers nothing yet. -/
def empty : Desk γ κ ν := ⟨∅, fun _ => none⟩

/-- What the votes so far come to, among `n` voters. -/
def verdict (n : ℕ) (votes : List ν) : Option (Verdict ν) :=
  if h : ∃ v, Wins (n / 2) v votes then some (.decided h.choose)
  else if votes.length = n then some .refused
  else none

/-- What a client is told. -/
def told (n : ℕ) (d : Desk γ κ ν) : DeskAction γ κ ν → γ → Option (Verdict ν)
  | .ask client topic _, c => if c = client ∧ topic ∉ d.offered then some .unavailable else none
  | .vote client topic value, c =>
      if c = client then (d.opened c).bind fun q =>
        if q.topic = topic then verdict n (q.votes ++ [value]) else none
      else none
  | .tick now, c => (d.opened c).bind fun q => if q.deadline < now then some .refused else none
  | .offer _, _ => none
  | .idle, _ => none

/-- The question of a client, as far as it is not answered. -/
def taken (patience : ℤ) (d : Desk γ κ ν) : DeskAction γ κ ν → γ → Option (Question κ ν)
  | .ask client topic now, c =>
      if c = client ∧ topic ∈ d.offered then some ⟨topic, now + patience, []⟩ else d.opened c
  | .vote client topic value, c =>
      if c = client then (d.opened c).map fun q =>
        if q.topic = topic then { q with votes := q.votes ++ [value] } else q
      else d.opened c
  | .offer _, c => d.opened c
  | .tick _, c => d.opened c
  | .idle, c => d.opened c

/-- What is on offer afterwards. -/
def offeredAfter (d : Desk γ κ ν) : DeskAction γ κ ν → Set κ
  | .offer topic => insert topic d.offered
  | _ => d.offered

/-- One action: whoever is told something has no question any more. -/
def step (n : ℕ) (patience : ℤ) (d : Desk γ κ ν) (a : DeskAction γ κ ν) : Desk γ κ ν where
  offered := d.offeredAfter a
  opened := fun c => if (d.told n a c).isSome then none else d.taken patience a c

/-! ## The verdict -/

/-- A value that wins is the verdict. -/
theorem verdict_of_wins (hlength : votes.length ≤ n) {v : ν} (h : Wins (n / 2) v votes) :
    verdict n votes = some (.decided v) := by
  have hexists : ∃ v, Wins (n / 2) v votes := ⟨v, h⟩
  rw [verdict, dif_pos hexists, hexists.choose_spec.unique h (by omega)]

theorem verdict_of_full (hlength : votes.length = n) (h : ∀ v, ¬ Wins (n / 2) v votes) :
    verdict n votes = some .refused := by
  rw [verdict, dif_neg (not_exists.mpr h), if_pos hlength]

theorem verdict_of_undecided (hlength : votes.length < n) (h : ∀ v, ¬ Wins (n / 2) v votes) :
    verdict n votes = none := by
  rw [verdict, dif_neg (not_exists.mpr h), if_neg hlength.ne]

/-! ## Votes -/

variable {d : Desk γ κ ν} {patience : ℤ} {client c : γ} {topic : κ}

/-- A client that is told nothing keeps its question. -/
theorem opened_step_of_none {a : DeskAction γ κ ν} (h : d.told n a c = none) :
    (d.step n patience a).opened c = d.taken patience a c := by
  refine if_neg ?_
  rw [h]
  exact Bool.false_ne_true

/-- A client that is told something has no question left. -/
theorem opened_step_of_some {a : DeskAction γ κ ν} {verdict : Verdict ν}
    (h : d.told n a c = some verdict) : (d.step n patience a).opened c = none := by
  refine if_pos ?_
  rw [h]
  rfl

/-- A vote is nothing to the other clients. -/
theorem told_vote_of_other (hne : c ≠ client) (value : ν) :
    d.told n (.vote client topic value) c = none :=
  if_neg hne

theorem opened_vote_of_other (hne : c ≠ client) (value : ν) :
    (d.step n patience (.vote client topic value)).opened c = d.opened c := by
  rw [opened_step_of_none (told_vote_of_other hne value)]
  exact if_neg hne

/-- A vote that nobody has asked for. -/
theorem told_vote_of_unasked (h : ∀ q, d.opened client = some q → q.topic ≠ topic) (value : ν) :
    d.told n (.vote client topic value) c = none := by
  by_cases hc : c = client
  · subst hc
    refine (if_pos rfl).trans ?_
    cases hopened : d.opened c with
    | none => rfl
    | some q => exact if_neg (h q hopened)
  · exact told_vote_of_other hc value

theorem opened_vote_of_unasked (h : ∀ q, d.opened client = some q → q.topic ≠ topic) (value : ν) :
    (d.step n patience (.vote client topic value)).opened c = d.opened c := by
  by_cases hc : c = client
  · subst hc
    rw [opened_step_of_none (told_vote_of_unasked h value)]
    refine (if_pos rfl).trans ?_
    cases hopened : d.opened c with
    | none => rfl
    | some q => exact congrArg some (if_neg (h q hopened))
  · exact opened_vote_of_other hc value

/-- A vote on an open question. -/
theorem told_vote {q : Question κ ν} (h : d.opened client = some q) (htopic : q.topic = topic)
    (value : ν) :
    d.told n (.vote client topic value) client = verdict n (q.votes ++ [value]) := by
  refine (if_pos rfl).trans ?_
  rw [h, Option.bind_some, if_pos htopic]

/-- It is added as long as it does not decide. -/
theorem opened_vote_of_undecided {q : Question κ ν} (h : d.opened client = some q)
    (htopic : q.topic = topic) {value : ν} (hnone : verdict n (q.votes ++ [value]) = none) :
    (d.step n patience (.vote client topic value)).opened client =
      some { q with votes := q.votes ++ [value] } := by
  rw [opened_step_of_none ((told_vote h htopic value).trans hnone)]
  refine (if_pos rfl).trans ?_
  rw [h, Option.map_some, if_pos htopic]

end

end Desk
