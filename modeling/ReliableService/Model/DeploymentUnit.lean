import ReliableService.Lib.Loop
import ReliableService.Model.Communication

/-!
# The deployment unit

`deployment_unit.cpp` forks one process for each copy of a service and numbers them from `0`
on.  How many there are is up to whoever starts it: `get_arg` narrows the option to a
`uint8_t`, and `main` refuses `0` and nothing else.  The redundancy of the broker is not known
here.
-/

namespace ReliableService

/-- `NUM_MIN_NMR` -/
def numMinNmr : UInt8 := 1

/-- One iteration of `deployment`: a process is forked for the copy `i`. -/
def startCopy (i : UInt8) (started : List UInt8) : Option (List UInt8) := some (started ++ [i])

/-- The loop of `deployment`, given up after `fuel` iterations: the identifiers of the copies. -/
def deployment (numCopyServer : UInt8) (fuel : ℕ) : Option (List UInt8) :=
  forLoop (fun i => i ≠ numCopyServer) (· + 1) startCopy fuel 0 []

/-- `main`, after the options are parsed. -/
def deploymentUnit (numCopyServer : UInt8) (fuel : ℕ) : Except Fault (List UInt8) :=
  if numCopyServer < numMinNmr then .error .exitFailure
  else
    match deployment numCopyServer fuel with
    | none => .error .endless
    | some ids => .ok ids

theorem deployment_eq {numCopyServer : UInt8} {fuel : ℕ} (hfuel : numCopyServer.toNat ≤ fuel) :
    deployment numCopyServer fuel = some ((List.range numCopyServer.toNat).map UInt8.ofNat) := by
  have hvalue : ∀ k ≤ numCopyServer.toNat, (UInt8.ofNat k).toNat = k := by
    intro k hk
    have := numCopyServer.toNat_lt
    rw [UInt8.toNat_ofNat', Nat.mod_eq_of_lt (by omega)]
  have hcond : ∀ k < numCopyServer.toNat, decide (UInt8.ofNat k ≠ numCopyServer) = true := by
    intro k hk
    refine decide_eq_true fun heq => ?_
    have := hvalue k hk.le
    rw [heq] at this
    omega
  have hend : decide (UInt8.ofNat numCopyServer.toNat ≠ numCopyServer) = false := by simp
  have hnext : ∀ k < numCopyServer.toNat, UInt8.ofNat k + 1 = UInt8.ofNat (k + 1) := fun k _ =>
    (UInt8.ofNat_add k 1).symm
  have hbody : ∀ k < numCopyServer.toNat, ∀ started, started = (List.range k).map UInt8.ofNat →
      ∃ t, startCopy (UInt8.ofNat k) started = some t ∧
        t = (List.range (k + 1)).map UInt8.ofNat := by
    rintro k - _ rfl
    exact ⟨_, rfl, by rw [List.range_succ, List.map_append, List.map_singleton]⟩
  have hloop : ∃ started, deployment numCopyServer fuel = some started ∧
      started = (List.range numCopyServer.toNat).map UInt8.ofNat := by
    show ∃ started, forLoop (fun i : UInt8 => decide (i ≠ numCopyServer)) (· + 1) startCopy fuel
      (UInt8.ofNat 0) [] = some started ∧ _
    exact forLoop_spec hnext hcond hend hfuel hbody rfl
  obtain ⟨started, hstarted, rfl⟩ := hloop
  exact hstarted

/-- The copies a deployment starts have the identifiers below their number. -/
theorem lt_of_mem_deploymentUnit {numCopyServer id : UInt8} {fuel : ℕ} {ids : List UInt8}
    (h : deploymentUnit numCopyServer fuel = .ok ids) (hfuel : numCopyServer.toNat ≤ fuel)
    (hid : id ∈ ids) : id < numCopyServer := by
  unfold deploymentUnit at h
  rw [deployment_eq hfuel] at h
  split at h
  · cases h
  · rw [← Except.ok.inj h, List.mem_map] at hid
    obtain ⟨k, hk, rfl⟩ := hid
    have hlt := List.mem_range.mp hk
    rw [UInt8.lt_iff_toNat_lt, UInt8.toNat_ofNat']
    exact (Nat.mod_le ..).trans_lt hlt

end ReliableService
