import ReliableService.Requests.Settling

/-!
# At most one response for each request

A session keeps its books through every handler as long as its sweeps are aligned, and a
sound ledger has no request twice among the answered ones.

A sweep that is not aligned answers a client and deletes the record of nobody.  The record
stays, expired, and the next sweep 50 ms later answers the client again
(`answered_twice`).
-/

namespace ReliableService.Session

open ServiceRecord

variable {nmr : UInt8} {s : Session nmr}

/-- No request has two responses, and no record of an answered client is left under any
service. -/
structure AnsweredOnce (s : Session nmr) : Prop where
  at_most_one : ∀ n, s.ledger.answered.count n ≤ 1
  no_record_left : ∀ b ∈ s.broker, ∀ c, ∀ n ∈ s.ledger.latest c, n ∈ s.ledger.answered →
    ∀ service, ∀ record ∈ b.db.pending service, record.clientId ≠ c

instance (db : ServiceDatabase nmr) (now : Timespec) (entries : List (ServiceType × ℕ)) :
    Decidable (Aligned db now entries) :=
  inferInstanceAs (Decidable (∀ entry ∈ entries, ∀ record ∈ db.pending entry.1, _ → _))

instance (s : Session nmr) : ∀ event, Decidable (SweepAligned s event)
  | .sweep now =>
      match h : s.broker with
      | none => .isTrue fun b hb => by simp [h] at hb
      | some b => decidable_of_iff (Aligned b.db now b.availableServices.zipIdx)
          (by simp [SweepAligned, h])
  | .registration _ _ => .isTrue trivial
  | .request _ _ _ _ => .isTrue trivial
  | .response _ _ _ => .isTrue trivial
  | .heartbeat _ _ _ => .isTrue trivial

theorem InOrder.answeredOnce {fit : ℕ → List Int32 → Prop} {good : ℕ → ResponseModule → Prop}
    (h : s.InOrder fit good) : s.AnsweredOnce where
  at_most_one n := List.nodup_iff_count_le_one.mp h.1.answered_nodup n
  no_record_left b hb c n hlatest hanswered service record hmem heq := by
    have hidle : ∀ m, ¬ s.ledger.Waiting c m := by
      intro m hm
      have : n = m := Option.some.inj ((Option.mem_def.mp hlatest).symm.trans hm.1)
      exact hm.2 (this ▸ hanswered)
    have hnil := (h.2 b hb).ofClient_nil hidle service
    have : record ∈ ofClient c (b.db.pending service) := mem_ofClient.mpr ⟨hmem, heq⟩
    simp [hnil] at this

/-- The books with nothing asked of results and responses. -/
abbrev Orderly (s : Session nmr) : Prop := s.InOrder (fun _ _ => True) (fun _ _ => True)

theorem Orderly.step {s' : Session nmr} {event : Event} (h : s.Orderly)
    (haligned : s.SweepAligned event) (hstep : s.step event = some s') : s'.Orderly :=
  InOrder.step h (fun _ _ _ => trivial)
    ⟨fun _ _ _ _ _ => trivial, fun _ _ _ _ => trivial⟩ (fun _ _ _ _ _ => trivial)
    (fun _ _ _ _ _ _ _ _ _ _ _ => trivial) haligned hstep

theorem orderly_of_aligned {portRouter portReg : UInt16} {events : List Event}
    (haligned : Machine.Along step SweepAligned (init portRouter portReg : Session nmr) events)
    (hrun : Machine.run step (init portRouter portReg) events = some s) : s.Orderly :=
  Machine.run_invariant (fun _ _ _ h hok hstep => Orderly.step h hok hstep)
    (inOrder_init _ _ portRouter portReg) haligned hrun

/-- **At most one response for each request**, in every state of every run with aligned
sweeps. -/
theorem answeredOnce_of_aligned (portRouter portReg : UInt16) (events : List Event)
    (haligned : Machine.Along step SweepAligned (init portRouter portReg : Session nmr) events)
    {s : Session nmr} (hrun : Machine.run step (init portRouter portReg) events = some s) :
    s.AnsweredOnce :=
  (orderly_of_aligned haligned hrun).answeredOnce

/-- Service `0` is complete; its client is answered by the sweep. -/
def timedOutRun : List Event :=
  [.registration ⟨"pippo", 0⟩ ⟨0, 0⟩, .registration ⟨"pippo", 0⟩ ⟨0, 0⟩,
    .request 7 ⟨0, Vector.replicate paramSize 0⟩ ⟨0, 0⟩ ⟨0, 0⟩, .sweep ⟨10, 0⟩, .sweep ⟨20, 0⟩]

theorem answeredOnce_timedOutRun :
    ∃ s, Machine.run step (init 5559 5555 : Session 2) timedOutRun = some s ∧ s.AnsweredOnce := by
  have hrun : (Machine.run step (init 5559 5555 : Session 2) timedOutRun).isSome := by
    decide +kernel
  exact ⟨_, (Option.some_get hrun).symm, answeredOnce_of_aligned 5559 5555 timedOutRun
    (by decide +kernel) (Option.some_get hrun).symm⟩

/-- Service `1` is complete and first in line; service `0` has one copy. -/
def shiftedRun : List Event :=
  [.registration ⟨"pippo", 1⟩ ⟨0, 0⟩, .registration ⟨"pippo", 1⟩ ⟨0, 0⟩,
    .registration ⟨"pippo", 0⟩ ⟨0, 0⟩,
    .request 7 ⟨1, Vector.replicate paramSize 0⟩ ⟨0, 0⟩ ⟨0, 0⟩, .sweep ⟨10, 0⟩, .sweep ⟨20, 0⟩]

/-- **An expired request is answered at every sweep** when its service is not at the
position of its number. -/
theorem answered_twice :
    ¬ ∀ (nmr : UInt8) (portRouter portReg : UInt16) (events : List Event) (s : Session nmr),
      Machine.run step (init portRouter portReg) events = some s → s.AnsweredOnce := by
  intro h
  have hanswers : (Machine.run step (init 5559 5555 : Session 2) shiftedRun).map
      (·.ledger.answered) = some [0, 0] := by decide +kernel
  obtain ⟨s, hrun, hanswered⟩ := Option.map_eq_some_iff.mp hanswers
  have hcount := (h 2 5559 5555 shiftedRun s hrun).at_most_one 0
  rw [hanswered] at hcount
  exact absurd hcount (by decide)

end ReliableService.Session
