import Mathlib.Data.List.Count
import Mathlib.Tactic.Common

/-!
# Round-robin distribution

A `Rotation` hands messages to its peers in turn.  `targets n` are the peers that get the next
`n` messages and `advance n` is the ring after them; both stop at a ring without peers.

Only one fact about the order matters to a peer: as long as there are at least as many
messages as peers, nobody is left out (`Rotation.mem_targets`).
-/

/-- Peers in the order in which they joined, and whose turn it is. -/
structure Rotation (κ : Type*) where
  peers : List κ
  cursor : ℕ

namespace Rotation

variable {κ : Type*} {r : Rotation κ} {k : κ}

def empty : Rotation κ := ⟨[], 0⟩

/-- A new peer joins at the end. -/
def join (r : Rotation κ) (k : κ) : Rotation κ := { r with peers := r.peers ++ [k] }

/-- A peer leaves; the turn stays where it is among the others. -/
def leave [DecidableEq κ] (r : Rotation κ) (k : κ) : Rotation κ where
  peers := r.peers.erase k
  cursor := (if r.peers.idxOf k < r.cursor then r.cursor - 1 else r.cursor) %
    (r.peers.erase k).length

/-- The ring after one message. -/
def step (r : Rotation κ) : Rotation κ := { r with cursor := (r.cursor + 1) % r.peers.length }

/-- The peer whose turn it is, and the ring after its message. -/
def next (r : Rotation κ) : Option (κ × Rotation κ) := r.peers[r.cursor]?.map fun k => (k, r.step)

/-- Who gets the next `n` messages. -/
def targets (r : Rotation κ) : ℕ → List κ
  | 0 => []
  | n + 1 =>
      match r.next with
      | none => []
      | some (k, r') => k :: r'.targets n

/-- The cursor points at a peer. -/
def Ready (r : Rotation κ) : Prop := r.cursor < r.peers.length

theorem mem_of_mem_leave [DecidableEq κ] {other : κ} (h : other ∈ (r.leave k).peers) :
    other ∈ r.peers :=
  List.mem_of_mem_erase h

theorem Ready.step (h : r.Ready) : r.step.Ready :=
  Nat.mod_lt _ (Nat.zero_lt_of_lt h)

theorem next_of_ready (h : r.Ready) : r.next = some (r.peers[r.cursor], r.step) := by
  rw [next, List.getElem?_eq_getElem h, Option.map_some]

theorem next_of_not_ready (h : ¬ r.Ready) : r.next = none := by
  rw [next, List.getElem?_eq_none (Nat.not_lt.mp h), Option.map_none]

/-! ## Rings of peers that come and go -/

/-- The cursor is at the start, or points at a peer. -/
def Valid (r : Rotation κ) : Prop := r.cursor = 0 ∨ r.Ready

theorem valid_empty : (empty : Rotation κ).Valid := Or.inl rfl

theorem Valid.join (h : r.Valid) (k : κ) : (r.join k).Valid := by
  refine h.imp id fun hready => ?_
  have hcursor : r.cursor < r.peers.length := hready
  rw [Ready, Rotation.join, List.length_append]
  exact Nat.lt_add_right _ hcursor

/-- A ring with peers has one whose turn it is. -/
theorem Valid.ready (h : r.Valid) (hk : k ∈ r.peers) : r.Ready := by
  rcases h with hzero | hready
  · rw [Ready, hzero]
    exact List.length_pos_of_mem hk
  · exact hready

/-! ## Who gets the messages -/

theorem targets_succ (h : r.Ready) (n : ℕ) :
    r.targets (n + 1) = r.peers[r.cursor] :: r.step.targets n := by
  rw [targets, next_of_ready h]

theorem targets_of_not_ready (h : ¬ r.Ready) (n : ℕ) : r.targets n = [] := by
  cases n with
  | zero => rfl
  | succ n => rw [targets, next_of_not_ready h]

/-- The `m`-th of `n` messages goes to the peer `m` places on. -/
theorem mem_targets_of_lt (h : r.Ready) {m n : ℕ} (hm : m < n)
    (hk : r.peers[(r.cursor + m) % r.peers.length]? = some k) : k ∈ r.targets n := by
  induction n generalizing r m with
  | zero => exact absurd hm (Nat.not_lt_zero m)
  | succ n ih =>
      rw [targets_succ h]
      cases m with
      | zero =>
          have hcursor : r.cursor < r.peers.length := h
          rw [Nat.add_zero, Nat.mod_eq_of_lt hcursor, List.getElem?_eq_getElem hcursor,
            Option.some.injEq] at hk
          exact hk ▸ List.mem_cons_self
      | succ m =>
          apply List.mem_cons_of_mem
          apply ih h.step (Nat.lt_of_succ_lt_succ hm)
          have hplace : (r.step.cursor + m) % r.step.peers.length =
              (r.cursor + (m + 1)) % r.peers.length :=
            calc ((r.cursor + 1) % r.peers.length + m) % r.peers.length
                = (r.cursor + 1 + m) % r.peers.length := Nat.mod_add_mod ..
              _ = (r.cursor + (m + 1)) % r.peers.length := by rw [Nat.add_assoc, Nat.add_comm 1]
          rw [hplace]
          exact hk

/-- **Nobody is left out** when there are at least as many messages as peers. -/
theorem mem_targets (h : r.Ready) {n : ℕ} (hn : r.peers.length ≤ n) (hk : k ∈ r.peers) :
    k ∈ r.targets n := by
  obtain ⟨i, hi, rfl⟩ := List.getElem_of_mem hk
  have hcursor : r.cursor < r.peers.length := h
  -- the peer at `i` is reached after going round from the cursor
  have hplace : ∃ m < r.peers.length, (r.cursor + m) % r.peers.length = i := by
    rcases Nat.lt_or_ge i r.cursor with hlt | hle
    · refine ⟨i + r.peers.length - r.cursor, by omega, ?_⟩
      calc (r.cursor + (i + r.peers.length - r.cursor)) % r.peers.length
          = (i + r.peers.length) % r.peers.length := by congr 1; omega
        _ = i := by rw [Nat.add_mod_right, Nat.mod_eq_of_lt hi]
    · exact ⟨i - r.cursor, by omega, by rw [Nat.add_sub_cancel' hle, Nat.mod_eq_of_lt hi]⟩
  obtain ⟨m, hm, heq⟩ := hplace
  apply mem_targets_of_lt h (Nat.lt_of_lt_of_le hm hn)
  rw [heq]
  exact List.getElem?_eq_getElem hi

end Rotation
