import Mathlib.Data.List.Pairwise
import ReliableService.Lib.Machine
import ReliableService.Model.Processes

/-!
# Which process a health checker watches

A health checker knows its copy by the port alone.  The copies of a service have `MAX_NMR` ports,
and the next service has the ports behind them, but how many copies a deployment unit starts is
not bounded by `MAX_NMR`, and nobody looks whether a service is deployed twice.

Here is when this goes well: at any moment of any run of the processes of a host, a copy that
listens where a health checker sends its pings is the one that it restarts (`separate_iff`).
-/

namespace ReliableService

/-! ## The ports of a deployment -/

theorem toNat_pongPort (service id : UInt8) :
    (pongPort service id).toNat = serverPongPort + id.toNat + service.toNat * maxNmr := by
  have hservice := service.toNat_lt
  have hid := id.toNat_lt
  rw [pongPort, UInt16.toNat_ofNat', serverPongPort, maxNmr]
  omega

namespace Launch

def firstPort (l : Launch) : ℕ := serverPongPort + l.service.toNat * maxNmr

/-- The first port behind those of the copies. -/
def endPort (l : Launch) : ℕ := l.firstPort + l.numCopyServer.toNat

/-- No copy of the one has a port of a copy of the other. -/
def Clear (l l' : Launch) : Prop := l.endPort ≤ l'.firstPort ∨ l'.endPort ≤ l.firstPort

/-- No copy has this port. -/
def Avoids (l : Launch) (port : UInt16) : Prop := port.toNat < l.firstPort ∨ l.endPort ≤ port.toNat

/-- A copy of the service can get beyond `get_service_body`. -/
def Offered (l : Launch) : Prop := Host.hasBody l.service true = true

instance (l l' : Launch) : Decidable (l.Clear l') := by unfold Clear; infer_instance

instance (l : Launch) (port : UInt16) : Decidable (l.Avoids port) := by
  unfold Avoids; infer_instance

instance (l : Launch) : Decidable l.Offered := by unfold Offered; infer_instance

variable {l l' : Launch}

theorem Clear.symm (h : l.Clear l') : l'.Clear l := h.imp_left id |>.symm

theorem zero_lt_numCopyServer (l : Launch) : 0 < l.numCopyServer :=
  UInt8.lt_iff_toNat_lt.mpr (UInt8.le_iff_toNat_le.mp l.enough)

theorem toNat_pongPort_zero (l : Launch) : (pongPort l.service 0).toNat = l.firstPort :=
  toNat_pongPort ..

theorem toNat_pongPort_of_lt {id : UInt8} (hid : id < l.numCopyServer) :
    l.firstPort ≤ (pongPort l.service id).toNat ∧ (pongPort l.service id).toNat < l.endPort := by
  rw [toNat_pongPort, endPort, firstPort]
  have hlt := UInt8.lt_iff_toNat_lt.mp hid
  omega

/-- Every one of the ports belongs to a copy. -/
theorem exists_pongPort {port : UInt16} (hfirst : l.firstPort ≤ port.toNat)
    (hend : port.toNat < l.endPort) : ∃ id < l.numCopyServer, pongPort l.service id = port := by
  have hnum := l.numCopyServer.toNat_lt
  have hid : (UInt8.ofNat (port.toNat - l.firstPort)).toNat = port.toNat - l.firstPort := by
    rw [UInt8.toNat_ofNat', endPort] at *
    omega
  refine ⟨UInt8.ofNat (port.toNat - l.firstPort), UInt8.lt_iff_toNat_lt.mpr ?_,
    UInt16.toNat_inj.mp ?_⟩
  · rw [hid]
    unfold endPort at hend
    omega
  · rw [toNat_pongPort, hid]
    unfold firstPort at *
    omega

theorem not_avoids_iff {port : UInt16} :
    ¬ l.Avoids port ↔ ∃ id < l.numCopyServer, pongPort l.service id = port := by
  constructor
  · intro h
    rw [Avoids, not_or, not_lt, not_le] at h
    exact exists_pongPort h.1 h.2
  · rintro ⟨id, hid, rfl⟩
    have hbounds := toNat_pongPort_of_lt hid
    rw [Avoids, not_or, not_lt, not_le]
    exact hbounds

theorem not_clear_iff : ¬ l.Clear l' ↔ ∃ id < l.numCopyServer, ∃ id' < l'.numCopyServer,
    pongPort l.service id = pongPort l'.service id' := by
  constructor
  · intro h
    rw [Clear, not_or, not_le, not_le] at h
    -- the first port of the later deployment is one of the other
    rcases le_total l.firstPort l'.firstPort with hle | hle
    · rw [← l'.toNat_pongPort_zero] at hle h
      obtain ⟨id, hid, hport⟩ := exists_pongPort hle h.1
      exact ⟨id, hid, 0, l'.zero_lt_numCopyServer, hport⟩
    · rw [← l.toNat_pongPort_zero] at hle h
      obtain ⟨id', hid', hport⟩ := exists_pongPort hle h.2
      exact ⟨0, l.zero_lt_numCopyServer, id', hid', hport.symm⟩
  · rintro ⟨id, hid, id', hid', hport⟩ hclear
    have hbounds := toNat_pongPort_of_lt hid
    have hbounds' := toNat_pongPort_of_lt hid'
    rw [hport] at hbounds
    rcases hclear with hle | hle <;> omega

/-- Two services with at most `MAX_NMR` copies each are in nobody's way. -/
theorem clear_of_le (hne : l.service ≠ l'.service) (hnum : l.numCopyServer.toNat ≤ maxNmr)
    (hnum' : l'.numCopyServer.toNat ≤ maxNmr) : l.Clear l' := by
  have hservice : l.service.toNat ≠ l'.service.toNat := fun h => hne (UInt8.toNat_inj.mp h)
  unfold Clear endPort firstPort
  unfold maxNmr at *
  omega

end Launch

/-! ## The processes -/

/-- The deployment of a health checker, and the service and the identifier of its copy. -/
def Process.copy : Process → Option (ℕ × UInt8 × UInt8)
  | .starter d argv => some (d, firstChar argv.1, firstChar argv.2)
  | .checker d hc => some (d, hc.service, hc.serverId)
  | .booting _ _ => none
  | .server _ _ _ => none

/-- The health checker of a copy, and its service and identifier. -/
def Process.child : Process → Option (ℕ × UInt8 × UInt8)
  | .starter _ _ => none
  | .checker _ _ => none
  | .booting parent argv => some (parent, firstChar argv.1, firstChar argv.2)
  | .server parent service id => some (parent, service, id)

theorem Process.child_eq_none {process : Process} {c : ℕ × UInt8 × UInt8}
    (h : process.copy = some c) : process.child = none := by
  cases process with
  | starter d argv => rfl
  | checker d hc => rfl
  | booting parent argv => cases h
  | server parent service id => cases h

theorem Process.copy_eq_none {process : Process} {c : ℕ × UInt8 × UInt8}
    (h : process.child = some c) : process.copy = none := by
  cases hcopy : process.copy with
  | none => rfl
  | some c' => rw [child_eq_none hcopy] at h; cases h

/-- Whatever stands behind the characters, they are what the new program reads. -/
theorem firstChar_of_execlp {arg0 arg1 : UInt8} {behind0 behind1 : List UInt8} {argv : Argv}
    (h : execlp arg0 arg1 behind0 behind1 = some argv) :
    firstChar argv.1 = arg0 ∧ firstChar argv.2 = arg1 := by
  have hfirst : ∀ {c : UInt8} {behind text : List UInt8}, cString 0 (c :: behind) = some text →
      firstChar text = c := by
    intro c behind text htext
    unfold cString at htext
    split at htext
    · rw [← Option.some.inj htext, List.takeWhile_cons]
      split
      · rfl
      · rename_i hc
        exact (not_not.mp (of_decide_eq_false (Bool.not_eq_true _ ▸ hc))).symm
    · cases htext
  unfold execlp at h
  obtain ⟨argv0, h0, h⟩ := Option.bind_eq_some_iff.mp h
  obtain ⟨argv1, h1, h⟩ := Option.bind_eq_some_iff.mp h
  obtain rfl := Option.some.inj h
  exact ⟨hfirst h0, hfirst h1⟩

namespace Host

variable {launches : List Launch} {busy : List UInt16} {host host' : Host} {p q d : ℕ}
  {service id : UInt8}

def copyAt (host : Host) (pid : ℕ) : Option (ℕ × UInt8 × UInt8) :=
  (host.process pid).bind Process.copy

def childAt (host : Host) (pid : ℕ) : Option (ℕ × UInt8 × UInt8) :=
  (host.process pid).bind Process.child

/-- What holds of the processes at any moment. -/
structure Sound (launches : List Launch) (host : Host) : Prop where
  fresh : ∀ p, host.next ≤ p → host.process p = none
  started : ∀ d l, launches[d]? = some l → host.started d ≤ l.numCopyServer
  origin : ∀ p d service id, host.copyAt p = some (d, service, id) →
    ∃ l, launches[d]? = some l ∧ service = l.service ∧ id < host.started d
  /-- A deployment unit starts one process for a copy. -/
  once : ∀ p p' d service service' id, host.copyAt p = some (d, service, id) →
    host.copyAt p' = some (d, service', id) → p = p'
  checker : ∀ p d hc, host.process p = some (.checker d hc) →
    hc.port = pongPort hc.service hc.serverId ∧ hc.pid < host.next ∧
      ∀ process, host.process hc.pid = some process → ∃ c, process.child = some c
  /-- The health checker of a copy watches it. -/
  child : ∀ p q service id, host.childAt p = some (q, service, id) →
    ∃ d hc, host.process q = some (.checker d hc) ∧ hc.pid = p ∧ hc.service = service ∧
      hc.serverId = id
  running : ∀ p q service id, host.process p = some (.server q service id) →
    hasBody service true = true

theorem sound_init (launches : List Launch) : Sound launches init where
  fresh _ _ := rfl
  started _ _ _ := UInt8.zero_le
  origin _ _ _ _ h := by cases h
  once _ _ _ _ _ _ h := by cases h
  checker _ _ _ h := by cases h
  child _ _ _ _ h := by cases h
  running _ _ _ _ h := by cases h

theorem Sound.lt_next (h : Sound launches host) {process : Process}
    (hp : host.process p = some process) : p < host.next := by
  by_contra hle
  rw [h.fresh p (not_lt.mp hle)] at hp
  cases hp

theorem process_become (host : Host) (p q : ℕ) (process : Option Process) :
    (host.become p process).process q = if q = p then process else host.process q :=
  Function.update_apply ..

theorem process_spawn (host : Host) (q : ℕ) (process : Option Process) :
    (host.spawn process).process q = if q = host.next then process else host.process q :=
  Function.update_apply ..

/-- A copy goes on, or ends. -/
theorem Sound.replace (h : Sound launches host) {old : Process} {new : Option Process}
    {c : ℕ × UInt8 × UInt8} (hp : host.process p = some old) (hold : old.child = some c)
    (hnew : ∀ process ∈ new, process.child = some c)
    (hrunning : ∀ q service id, new = some (.server q service id) → hasBody service true = true) :
    Sound launches (host.become p new) := by
  have hcopy : ∀ q, (host.become p new).copyAt q = host.copyAt q := by
    intro q
    unfold copyAt
    rw [process_become]
    split_ifs with hq
    · rw [hq, hp, Option.bind_some, Process.copy_eq_none hold, Option.bind_eq_none_iff]
      exact fun process hprocess => Process.copy_eq_none (hnew process hprocess)
    · rfl
  have hchild : ∀ q x, (host.become p new).childAt q = some x → host.childAt q = some x := by
    intro q x hx
    unfold childAt at hx ⊢
    rw [process_become] at hx
    split_ifs at hx with hq
    · obtain ⟨process, hprocess, hx⟩ := Option.bind_eq_some_iff.mp hx
      rw [hq, hp, Option.bind_some, hold, ← hx, hnew process hprocess]
    · exact hx
  have hchecker : ∀ q d hc, (host.become p new).process q = some (.checker d hc) ↔
      host.process q = some (.checker d hc) := by
    intro q d hc
    rw [process_become]
    split_ifs with hq
    · refine iff_of_false (fun hnew' => ?_) fun hchecker => ?_
      · cases hnew _ hnew'
      · rw [hq, hp, Option.some.injEq] at hchecker
        rw [hchecker] at hold
        cases hold
    · rfl
  constructor
  case fresh =>
    intro q hq
    rw [process_become, if_neg (h.lt_next hp |>.trans_le hq).ne']
    exact h.fresh q hq
  case started =>
    exact h.started
  case origin =>
    intro q d service id hq
    exact h.origin q d service id (hcopy q ▸ hq)
  case once =>
    intro q q' d service service' id hq hq'
    exact h.once q q' d service service' id (hcopy q ▸ hq) (hcopy q' ▸ hq')
  case checker =>
    intro q d hc hq
    obtain ⟨hport, hlt, hwatched⟩ := h.checker q d hc ((hchecker q d hc).mp hq)
    refine ⟨hport, hlt, fun process hprocess => ?_⟩
    rw [process_become] at hprocess
    split_ifs at hprocess
    · exact ⟨c, hnew process hprocess⟩
    · exact hwatched process hprocess
  case child =>
    intro r q service id hr
    obtain ⟨d, hc, hq, hrest⟩ := h.child r q service id (hchild r _ hr)
    exact ⟨d, hc, (hchecker q d hc).mpr hq, hrest⟩
  case running =>
    intro r q service id hr
    rw [process_become] at hr
    split_ifs at hr
    · exact hrunning q service id hr
    · exact h.running r q service id hr

/-- What a health checker does that forks its copy. -/
def attach (host : Host) (p d : ℕ) (service id : UInt8) (new : Option Argv) : Host :=
  (host.spawn (new.map (.booting p))).become p
    (some (.checker d ⟨host.next, pongPort service id, id, service⟩))

theorem process_attach (host : Host) (p d : ℕ) (service id : UInt8) (new : Option Argv) (q : ℕ) :
    (host.attach p d service id new).process q =
      if q = p then some (.checker d ⟨host.next, pongPort service id, id, service⟩) else
        if q = host.next then new.map (.booting p) else host.process q := by
  unfold attach
  rw [process_become, process_spawn]

theorem Sound.copyAt_attach (h : Sound launches host) (hp : host.copyAt p = some (d, service, id))
    (new : Option Argv) (q : ℕ) :
    (host.attach p d service id new).copyAt q = host.copyAt q := by
  rw [copyAt, process_attach]
  split_ifs with hq hq
  · rw [hq, hp]
    rfl
  · rw [copyAt, hq, h.fresh _ le_rfl]
    cases new <;> rfl
  · rfl

theorem childAt_attach {new : Option Argv}
    (hnew : ∀ argv ∈ new, firstChar argv.1 = service ∧ firstChar argv.2 = id)
    {c : ℕ × UInt8 × UInt8} (hq : (host.attach p d service id new).childAt q = some c) :
    q = host.next ∧ c = (p, service, id) ∨ q ≠ p ∧ host.childAt q = some c := by
  rw [childAt, process_attach] at hq
  split_ifs at hq with hqp hqnext
  · cases hq
  · obtain ⟨process, hbooting, hchild⟩ := Option.bind_eq_some_iff.mp hq
    obtain ⟨argv, hargv, rfl⟩ := Option.map_eq_some_iff.mp hbooting
    obtain ⟨rfl, rfl⟩ := hnew argv hargv
    exact .inl ⟨hqnext, (Option.some.inj hchild).symm⟩
  · exact .inr ⟨hqp, hq⟩

/-- A health checker, which has no copy, forks one. -/
theorem Sound.attach (h : Sound launches host) (hp : host.copyAt p = some (d, service, id))
    (halone : ∀ q service id, host.childAt q ≠ some (p, service, id)) {new : Option Argv}
    (hnew : ∀ argv ∈ new, firstChar argv.1 = service ∧ firstChar argv.2 = id) :
    Sound launches (host.attach p d service id new) := by
  obtain ⟨old, hold, hcopyold⟩ := Option.bind_eq_some_iff.mp hp
  have hlt : p < host.next := h.lt_next hold
  have hcopy := h.copyAt_attach hp new
  have hprocess := host.process_attach p d service id new
  constructor
  case fresh =>
    intro q hq
    have hq : host.next + 1 ≤ q := hq
    rw [hprocess, if_neg (by omega), if_neg (by omega)]
    exact h.fresh q (by omega)
  case started =>
    exact h.started
  case origin =>
    intro q d service id hq
    exact h.origin q d service id (hcopy q ▸ hq)
  case once =>
    intro q q' d service service' id hq hq'
    exact h.once q q' d service service' id (hcopy q ▸ hq) (hcopy q' ▸ hq')
  case checker =>
    intro q d' hc' hq
    rw [hprocess] at hq
    split_ifs at hq with hqp hqnext
    · obtain ⟨rfl, rfl⟩ := Process.checker.inj (Option.some.inj hq)
      refine ⟨rfl, Nat.lt_succ_self _, fun process hnext => ?_⟩
      rw [hprocess, if_neg hlt.ne', if_pos rfl] at hnext
      obtain ⟨argv, -, rfl⟩ := Option.map_eq_some_iff.mp hnext
      exact ⟨_, rfl⟩
    · obtain ⟨argv, -, hbooting⟩ := Option.map_eq_some_iff.mp hq
      cases hbooting
    · obtain ⟨hport, hpid, hwatched⟩ := h.checker q d' hc' hq
      refine ⟨hport, hpid.trans (Nat.lt_succ_self _), fun process hprocess' => ?_⟩
      rw [hprocess, if_neg hpid.ne] at hprocess'
      split_ifs at hprocess' with hself
      · obtain ⟨c, hchild⟩ := hwatched old (hself ▸ hold)
        rw [Process.child_eq_none hcopyold] at hchild
        cases hchild
      · exact hwatched process hprocess'
  case child =>
    intro r q service' id' hr
    rcases childAt_attach hnew hr with ⟨rfl, hc⟩ | ⟨-, hlive⟩
    · obtain ⟨rfl, rfl, rfl⟩ : q = p ∧ service' = service ∧ id' = id := by simpa using hc
      exact ⟨d, _, by rw [hprocess, if_pos rfl], rfl, rfl, rfl⟩
    · obtain ⟨d', hc', hq, hrest⟩ := h.child r q service' id' hlive
      have hqp : q ≠ p := by
        rintro rfl
        exact halone r service' id' hlive
      refine ⟨d', hc', ?_, hrest⟩
      rw [hprocess, if_neg hqp, if_neg (h.lt_next hq).ne]
      exact hq
  case running =>
    intro r q service' id' hr
    rw [hprocess] at hr
    split_ifs at hr
    · cases hr
    · obtain ⟨argv, -, hbooting⟩ := Option.map_eq_some_iff.mp hr
      cases hbooting
    · exact h.running r q service' id' hr

theorem copyAt_spawn {new : Option Argv}
    (hnew : ∀ argv ∈ new, firstChar argv.1 = service ∧ firstChar argv.2 = id)
    {c : ℕ × UInt8 × UInt8} (hq : (host.spawn (new.map (.starter d))).copyAt q = some c) :
    q = host.next ∧ c = (d, service, id) ∨ host.copyAt q = some c := by
  rw [copyAt, process_spawn] at hq
  split_ifs at hq with hqnext
  · obtain ⟨process, hstarter, hc⟩ := Option.bind_eq_some_iff.mp hq
    obtain ⟨argv, hargv, rfl⟩ := Option.map_eq_some_iff.mp hstarter
    obtain ⟨rfl, rfl⟩ := hnew argv hargv
    exact .inl ⟨hqnext, (Option.some.inj hc).symm⟩
  · exact .inr hq

theorem process_of_spawn {new : Option Argv} {process : Process}
    (hq : (host.spawn (new.map (.starter d))).process q = some process)
    (hne : ∀ argv, process ≠ .starter d argv) : host.process q = some process := by
  rw [process_spawn] at hq
  split_ifs at hq
  · obtain ⟨argv, -, rfl⟩ := Option.map_eq_some_iff.mp hq
    exact absurd rfl (hne argv)
  · exact hq

/-- A deployment unit forks a health checker. -/
theorem Sound.fork (h : Sound launches host) {l : Launch} (hl : launches[d]? = some l)
    (hi : host.started d ≠ l.numCopyServer) {new : Option Argv}
    (hnew : ∀ argv ∈ new, firstChar argv.1 = l.service ∧ firstChar argv.2 = host.started d) :
    Sound launches { host.spawn (new.map (.starter d)) with
      started := Function.update host.started d (host.started d + 1) } := by
  have hlt : (host.started d).toNat < l.numCopyServer.toNat :=
    lt_of_le_of_ne (UInt8.le_iff_toNat_le.mp (h.started d l hl)) fun h => hi (UInt8.toNat_inj.mp h)
  have hnext : (host.started d + 1).toNat = (host.started d).toNat + 1 := by
    have := l.numCopyServer.toNat_lt
    rw [UInt8.toNat_add, UInt8.toNat_one]
    omega
  have hstarted : ∀ {e : ℕ} {i : UInt8}, i < host.started e →
      i < Function.update host.started d (host.started d + 1) e := by
    intro e i hi
    rw [Function.update_apply]
    split_ifs with he
    · rw [he] at hi
      rw [UInt8.lt_iff_toNat_lt] at hi ⊢
      omega
    · exact hi
  constructor
  case fresh =>
    intro q hq
    have hq : host.next + 1 ≤ q := hq
    show (host.spawn (new.map (.starter d))).process q = none
    rw [process_spawn, if_neg (by omega)]
    exact h.fresh q (by omega)
  case started =>
    intro e l' hl'
    show Function.update host.started d (host.started d + 1) e ≤ l'.numCopyServer
    rw [Function.update_apply]
    split_ifs with he
    · rw [he, hl, Option.some.injEq] at hl'
      rw [UInt8.le_iff_toNat_le, hnext, ← hl']
      exact hlt
    · exact h.started e l' hl'
  case origin =>
    intro q e service id hq
    rcases copyAt_spawn hnew hq with ⟨-, hc⟩ | hq
    · obtain ⟨rfl, rfl, rfl⟩ : e = d ∧ service = l.service ∧ id = host.started d := by
        simpa using hc
      refine ⟨l, hl, rfl, ?_⟩
      show host.started e < Function.update host.started e (host.started e + 1) e
      rw [Function.update_self, UInt8.lt_iff_toNat_lt, hnext]
      exact Nat.lt_succ_self _
    · obtain ⟨l', hl', hservice, hid⟩ := h.origin q e service id hq
      exact ⟨l', hl', hservice, hstarted hid⟩
  case once =>
    intro q q' e service service' id hq hq'
    -- the identifier of the new copy is one that no other copy of the deployment has
    have hother : ∀ {q : ℕ} {service : UInt8}, host.copyAt q ≠ some (d, service, host.started d) :=
      fun hq => by
        obtain ⟨-, -, -, hlt⟩ := h.origin _ _ _ _ hq
        exact UInt8.lt_irrefl _ hlt
    rcases copyAt_spawn hnew hq with ⟨rfl, hc⟩ | hold <;>
      rcases copyAt_spawn hnew hq' with ⟨rfl, hc'⟩ | hold'
    · rfl
    · obtain ⟨rfl, -, rfl⟩ : e = d ∧ service = l.service ∧ id = host.started d := by simpa using hc
      exact absurd hold' hother
    · obtain ⟨rfl, -, rfl⟩ : e = d ∧ service' = l.service ∧ id = host.started d := by
        simpa using hc'
      exact absurd hold hother
    · exact h.once q q' e service service' id hold hold'
  case checker =>
    intro q e hc hq
    obtain ⟨hport, hpid, hwatched⟩ := h.checker q e hc (process_of_spawn hq (by rintro argv ⟨⟩))
    refine ⟨hport, hpid.trans (Nat.lt_succ_self _), fun process hprocess => ?_⟩
    have hprocess : (host.spawn (new.map (.starter d))).process hc.pid = some process := hprocess
    rw [process_spawn, if_neg hpid.ne] at hprocess
    exact hwatched process hprocess
  case child =>
    intro r q service id hr
    obtain ⟨process, hr, hchild⟩ := Option.bind_eq_some_iff.mp hr
    have hr : host.process r = some process := process_of_spawn hr fun argv hstarter => by
      rw [hstarter] at hchild
      cases hchild
    have hlive := Option.bind_eq_some_iff.mpr ⟨_, hr, hchild⟩
    obtain ⟨e, hc, hq, hrest⟩ := h.child r q service id hlive
    refine ⟨e, hc, ?_, hrest⟩
    show (host.spawn (new.map (.starter d))).process q = some (.checker e hc)
    rw [process_spawn, if_neg (h.lt_next hq).ne]
    exact hq
  case running =>
    intro r q service id hr
    exact h.running r q service id (process_of_spawn hr (by rintro argv ⟨⟩))

/-- The copy of a health checker is killed, if it is still there. -/
theorem Sound.kill (h : Sound launches host)
    (hp : ∀ process, host.process p = some process → ∃ c, process.child = some c) :
    Sound launches (host.become p none) := by
  cases hprocess : host.process p with
  | none =>
      have hsame : host.become p none = host := by
        unfold become
        rw [← hprocess, Function.update_eq_self]
      rwa [hsame]
  | some process =>
      obtain ⟨c, hc⟩ := hp process hprocess
      exact h.replace hprocess hc (by rintro _ ⟨⟩) (by rintro _ _ _ ⟨⟩)

theorem hasBody_of_construct {c p' : ℕ} {service' id' : UInt8} {garbage : Bool}
    (h : host.construct busy c service id garbage = some (.server p' service' id')) :
    hasBody service' true = true := by
  unfold construct at h
  split_ifs at h with hbody
  obtain ⟨-, rfl, -⟩ := Process.server.inj (Option.some.inj h)
  have hbody := (Bool.and_eq_true_iff.mp hbody).1
  unfold hasBody at hbody ⊢
  split at hbody
  · cases hbody
  · rfl
  · rfl

theorem child_of_construct {c : ℕ} {garbage : Bool} {process : Process}
    (h : process ∈ host.construct busy c service id garbage) :
    process.child = some (c, service, id) := by
  unfold construct at h
  split_ifs at h
  · rw [← Option.some.inj h]
    rfl
  · cases h

theorem Sound.step (h : Sound launches host) {action : HostAction}
    (hstep : host.step launches busy action = some host') : Sound launches host' := by
  cases action with
  | fork d behind0 behind1 =>
      obtain ⟨l, hl, hstep⟩ := Option.bind_eq_some_iff.mp hstep
      dsimp only at hstep
      split_ifs at hstep with hi
      obtain rfl := Option.some.inj hstep
      exact h.fork hl hi fun argv hargv => firstChar_of_execlp hargv
  | start pid =>
      simp only [Host.step] at hstep
      split at hstep
      · rename_i d argv hp
        obtain rfl := Option.some.inj hstep
        have halone : ∀ q service id, host.childAt q ≠ some (pid, service, id) := by
          intro q service id hq
          obtain ⟨_, _, hchecker, -⟩ := h.child q pid service id hq
          rw [hp] at hchecker
          cases hchecker
        have hargv : ∀ argv' ∈ some argv, firstChar argv'.1 = firstChar argv.1 ∧
            firstChar argv'.2 = firstChar argv.2 := by
          rintro _ ⟨⟩
          exact ⟨rfl, rfl⟩
        exact h.attach (by rw [copyAt, hp]; rfl) halone hargv
      · cases hstep
  | boot pid garbage =>
      simp only [Host.step] at hstep
      split at hstep
      · rename_i checker argv hp
        obtain rfl := Option.some.inj hstep
        exact h.replace hp rfl (fun _ => child_of_construct) fun _ _ _ => hasBody_of_construct
      · cases hstep
  | crash pid =>
      have hkill : ∀ {process : Process}, host.process pid = some process →
          (∃ c, process.child = some c) → Sound launches (host.become pid none) := by
        intro process hp hchild
        apply h.kill
        intro process' hp'
        rw [hp, Option.some.injEq] at hp'
        exact hp' ▸ hchild
      simp only [Host.step] at hstep
      split at hstep
      · rename_i hp
        obtain rfl := Option.some.inj hstep
        exact hkill hp ⟨_, rfl⟩
      · rename_i hp
        obtain rfl := Option.some.inj hstep
        exact hkill hp ⟨_, rfl⟩
      · cases hstep
  | restart pid behind0 behind1 =>
      simp only [Host.step] at hstep
      split at hstep
      · rename_i d hc hp
        obtain rfl := Option.some.inj hstep
        obtain ⟨hport, -, hwatched⟩ := h.checker pid d hc hp
        have hkilled := h.kill hwatched
        have hself : pid ≠ hc.pid := by
          intro hself
          obtain ⟨c, hchild⟩ := hwatched _ (hself ▸ hp)
          cases hchild
        have hstays : (host.become hc.pid none).process pid = some (.checker d hc) := by
          rw [process_become, if_neg hself, hp]
        -- what has been killed was the only copy
        have halone : ∀ q service id,
            (host.become hc.pid none).childAt q ≠ some (pid, service, id) := by
          intro q service id hq
          obtain ⟨_, hc', hchecker, hpid, -⟩ := hkilled.child q pid service id hq
          rw [hstays, Option.some.injEq] at hchecker
          obtain ⟨-, rfl⟩ := Process.checker.inj hchecker
          rw [← hpid, childAt, process_become, if_pos rfl] at hq
          cases hq
        have hargv : ∀ argv ∈ execlp hc.service hc.serverId behind0 behind1,
            firstChar argv.1 = hc.service ∧ firstChar argv.2 = hc.serverId := fun argv hargv =>
          firstChar_of_execlp hargv
        have hattached := hkilled.attach (by rw [copyAt, hstays]; rfl) halone hargv
        rw [Host.attach, ← hport] at hattached
        exact hattached
      · cases hstep

theorem Sound.run (h : Sound launches host) {actions : List HostAction}
    (hrun : Machine.run (Host.step launches busy) host actions = some host') :
    Sound launches host' :=
  Machine.run_invariant (C := fun _ _ => True) (fun _ _ _ h _ hstep => Sound.step h hstep) h
    (Machine.along_of_forall (fun _ _ => trivial) host actions) hrun

/-! ## Deployments that keep apart -/

/-- Where a health checker sends its pings, nobody listens but the copy it watches, and this is a
copy of the service and with the identifier that the health checker was started for. -/
def Separate (busy : List UInt16) (host : Host) : Prop :=
  ∀ p d hc, host.process p = some (.checker d hc) → hc.port ∉ busy ∧
    ∀ q process, host.process q = some process → process.bound = some hc.port →
      q = hc.pid ∧ process = .server p hc.service hc.serverId

/-- All moments of all runs. -/
def AlwaysSeparate (launches : List Launch) (busy : List UInt16) : Prop :=
  ∀ actions host, Machine.run (Host.step launches busy) init actions = some host →
    host.Separate busy

theorem Sound.id_lt (h : Sound launches host) (hp : host.copyAt p = some (d, service, id)) :
    ∃ l, launches[d]? = some l ∧ service = l.service ∧ id < l.numCopyServer := by
  obtain ⟨l, hl, hservice, hid⟩ := h.origin p d service id hp
  exact ⟨l, hl, hservice, UInt8.lt_of_lt_of_le hid (h.started d l hl)⟩

theorem Sound.separate (h : Sound launches host)
    (havoids : ∀ l ∈ launches, ∀ port ∈ busy, l.Avoids port)
    (hclear : ∀ (d d' : ℕ) (l l' : Launch), launches[d]? = some l → launches[d']? = some l' →
      d ≠ d' → l.Offered → l.Clear l') : host.Separate busy := by
  intro p d hc hp
  have hcopy : host.copyAt p = some (d, hc.service, hc.serverId) := by rw [copyAt, hp]; rfl
  obtain ⟨l, hl, hservice, hid⟩ := h.id_lt hcopy
  have hport := (h.checker p d hc hp).1
  rw [hservice] at hport
  refine ⟨fun hbusy => ?_, fun q process hq hbound => ?_⟩
  · exact Launch.not_avoids_iff.mpr ⟨_, hid, hport.symm⟩
      (havoids l (List.mem_of_getElem? hl) _ hbusy)
  · cases process with
    | starter e argv => cases hbound
    | checker e hc' => cases hbound
    | booting p' argv => cases hbound
    | server p' service' id' =>
        have hbound : pongPort service' id' = hc.port := Option.some.inj hbound
        -- the copy has a health checker of its own, and the question is which
        have hlive : host.childAt q = some (p', service', id') := by rw [childAt, hq]; rfl
        obtain ⟨d', hc', hp', hpid, rfl, rfl⟩ := h.child q p' service' id' hlive
        have hcopy' : host.copyAt p' = some (d', hc'.service, hc'.serverId) := by
          rw [copyAt, hp']
          rfl
        obtain ⟨l', hl', hservice', hid'⟩ := h.id_lt hcopy'
        rw [hservice', hport] at hbound
        by_cases hd : d' = d
        · have hll' : l' = l := by
            rw [hd, hl, Option.some.injEq] at hl'
            exact hl'.symm
          have hids : hc'.serverId = hc.serverId := by
            have hnat := congrArg UInt16.toNat hbound
            rw [toNat_pongPort, toNat_pongPort, hll'] at hnat
            exact UInt8.toNat_inj.mp (by omega)
          rw [hd, hids] at hcopy'
          obtain rfl := h.once p' p d _ _ _ hcopy' hcopy
          rw [hp, Option.some.injEq] at hp'
          obtain ⟨-, rfl⟩ := Process.checker.inj hp'
          exact ⟨hpid.symm, rfl⟩
        · have hoffered : l'.Offered := by
            rw [Launch.Offered, ← hservice']
            exact h.running q p' _ _ hq
          exact absurd (hclear d' d l' l hl' hl hd hoffered)
            (Launch.not_clear_iff.mpr ⟨_, hid', _, hid, hbound⟩)

/-- What has happened since `host`, as far as the deployment `d` is behind it and nothing has
booted. -/
structure Since (d : ℕ) (host host' : Host) : Prop where
  next_le : host.next ≤ host'.next
  started : ∀ e, e ≠ d → host'.started e = host.started e
  process : ∀ p < host.next, host'.process p = host.process p
  running : ∀ p q service id, host'.process p = some (.server q service id) → p < host.next

theorem Sound.since (h : Sound launches host) (d : ℕ) : Since d host host :=
  ⟨le_rfl, fun _ _ => rfl, fun _ _ => rfl, fun _ _ _ _ hp => h.lt_next hp⟩

theorem Since.trans {host'' : Host} (h : Since d host host') (h' : Since d host' host'') :
    Since d host host'' where
  next_le := h.next_le.trans h'.next_le
  started e he := (h'.started e he).trans (h.started e he)
  process p hp := (h'.process p (hp.trans_le h.next_le)).trans (h.process p hp)
  running p q service id hp := by
    have hlt := h'.running p q service id hp
    rw [h'.process p hlt] at hp
    exact h.running p q service id hp

/-- Where memory goes on with a terminator, the program starts. -/
theorem exists_execlp (arg0 arg1 : UInt8) : ∃ argv, execlp arg0 arg1 [0] [0] = some argv := by
  have hstring : ∀ c : UInt8, ∃ text, cString 0 [c, 0] = some text := fun c =>
    ⟨_, if_pos (by simp)⟩
  obtain ⟨argv0, h0⟩ := hstring arg0
  obtain ⟨argv1, h1⟩ := hstring arg1
  exact ⟨(argv0, argv1), by rw [execlp, h0, h1]; rfl⟩

/-- One iteration of a deployment unit. -/
theorem Sound.exists_fork (h : Sound launches host) (busy : List UInt16) {l : Launch}
    (hl : launches[d]? = some l) (hi : host.started d < l.numCopyServer) :
    ∃ host' argv, host.step launches busy (.fork d [0] [0]) = some host' ∧ Since d host host' ∧
      host'.started d = host.started d + 1 ∧ host'.process host.next = some (.starter d argv) ∧
      firstChar argv.1 = l.service ∧ firstChar argv.2 = host.started d := by
  obtain ⟨argv, hargv⟩ := exists_execlp l.service (host.started d)
  have hne : host.started d ≠ l.numCopyServer := by
    intro heq
    rw [heq] at hi
    exact UInt8.lt_irrefl _ hi
  have hstep : host.step launches busy (.fork d [0] [0]) =
      some { host.spawn (some (.starter d argv)) with
        started := Function.update host.started d (host.started d + 1) } := by
    simp only [Host.step, hl, hargv, Option.bind_eq_bind, Option.bind_some, if_neg hne,
      Option.map_some]
  refine ⟨_, argv, hstep, ⟨Nat.le_succ _, ?_, ?_, ?_⟩, Function.update_self .., ?_,
    firstChar_of_execlp hargv⟩
  · intro e he
    exact Function.update_of_ne he ..
  · intro p hp
    exact (process_spawn ..).trans (if_neg hp.ne)
  · intro p q service id hp
    have hp := (process_spawn ..).symm.trans hp
    split_ifs at hp with hnext
    · cases hp
    · exact h.lt_next hp
  · exact (process_spawn ..).trans (if_pos rfl)

/-- A deployment unit that has started no copy can start as many as it has. -/
theorem Sound.exists_forks (h : Sound launches host) (busy : List UInt16) {l : Launch}
    (hl : launches[d]? = some l) (hstarted : host.started d = 0) {n : ℕ}
    (hn : n ≤ l.numCopyServer.toNat) :
    ∃ actions host', Machine.run (Host.step launches busy) host actions = some host' ∧
      Since d host host' ∧ (host'.started d).toNat = n := by
  induction n with
  | zero => exact ⟨[], host, rfl, h.since d, by rw [hstarted]; rfl⟩
  | succ n ih =>
      obtain ⟨actions, t, ht, hsince, htn⟩ := ih (by omega)
      have hi : t.started d < l.numCopyServer := UInt8.lt_iff_toNat_lt.mpr (by omega)
      obtain ⟨u, argv, hu, hsince', hun, -⟩ := (h.run ht).exists_fork busy hl hi
      refine ⟨actions ++ [.fork d [0] [0]], u, ?_, hsince.trans hsince', ?_⟩
      · rw [Machine.run_append_of_run ht]
        exact Machine.run_cons_eq_some.mpr ⟨u, hu, rfl⟩
      · have := l.numCopyServer.toNat_lt
        rw [hun, UInt8.toNat_add, UInt8.toNat_one, htn]
        omega

theorem step_start (host : Host) (launches : List Launch) (busy : List UInt16) {argv : Argv}
    (hp : host.process p = some (.starter d argv)) : host.step launches busy (.start p) =
      some (host.attach p d (firstChar argv.1) (firstChar argv.2) (some argv)) := by
  simp only [Host.step, hp]
  rfl

/-- Every copy can get as far as its constructor. -/
theorem Sound.exists_checker (h : Sound launches host) (busy : List UInt16) {l : Launch}
    (hl : launches[d]? = some l) (hstarted : host.started d = 0) (hid : id < l.numCopyServer) :
    ∃ actions host' p hc argv,
      Machine.run (Host.step launches busy) host actions = some host' ∧ Since d host host' ∧
        host'.process p = some (.checker d hc) ∧ hc.port = pongPort l.service id ∧
        host.next ≤ hc.pid ∧ host'.process hc.pid = some (.booting p argv) ∧
        firstChar argv.1 = l.service ∧ firstChar argv.2 = id := by
  obtain ⟨actions, t, ht, hsince, htn⟩ :=
    h.exists_forks busy hl hstarted (UInt8.lt_iff_toNat_lt.mp hid).le
  have hti : t.started d = id := UInt8.toNat_inj.mp htn
  have hsound := h.run ht
  obtain ⟨u, argv, hu, hsince', -, hstarter, hservice, hfirst⟩ :=
    hsound.exists_fork busy hl (hti ▸ hid)
  have hlt : t.next < u.next := (hsound.step hu).lt_next hstarter
  have hstart := u.step_start launches busy hstarter
  rw [hti] at hfirst
  rw [hservice, hfirst] at hstart
  have hprocess := u.process_attach t.next d l.service id (some argv)
  have hattached : Since d t (u.attach t.next d l.service id (some argv)) := by
    refine ⟨hsince'.next_le.trans (Nat.le_succ _), hsince'.started, fun q hq => ?_, ?_⟩
    · rw [hprocess, if_neg hq.ne, if_neg (hq.trans hlt).ne]
      exact hsince'.process q hq
    · intro q r service id hq
      rw [hprocess] at hq
      split_ifs at hq
      · cases hq
      · cases hq
      · exact hsince'.running q r service id hq
  refine ⟨actions ++ [.fork d [0] [0], .start t.next], _, t.next, _, argv, ?_,
    hsince.trans hattached, (hprocess _).trans (if_pos rfl), rfl,
    hsince.next_le.trans hlt.le, ?_, hservice, hfirst⟩
  · rw [Machine.run_append_of_run ht]
    exact Machine.run_cons_eq_some.mpr ⟨u, hu, Machine.run_cons_eq_some.mpr ⟨_, hstart, rfl⟩⟩
  · rw [hprocess, if_neg hlt.ne', if_pos rfl]
    rfl

/-- Nobody has the port: the copy gets beyond its constructor. -/
theorem construct_eq {c : ℕ} (hbody : hasBody service true = true)
    (hbusy : pongPort service id ∉ busy)
    (hfree : ∀ q process, host.process q = some process →
      process.bound ≠ some (pongPort service id)) :
    host.construct busy c service id true = some (.server c service id) := by
  have htaken : host.taken busy (pongPort service id) = false := by
    rw [taken, Bool.or_eq_false_iff, List.any_eq_false]
    refine ⟨by simpa using hbusy, fun q _ => ?_⟩
    cases hq : host.process q with
    | none => simp
    | some process => simpa using hfree q process hq
  rw [construct, hbody, htaken]
  rfl

theorem AlwaysSeparate.avoids (h : AlwaysSeparate launches busy) {l : Launch}
    (hl : launches[d]? = some l) {port : UInt16} (hport : port ∈ busy) : l.Avoids port := by
  by_contra hnot
  obtain ⟨id, hid, rfl⟩ := Launch.not_avoids_iff.mp hnot
  obtain ⟨actions, host, p, hc, argv, hrun, -, hp, hsame, -⟩ :=
    (sound_init launches).exists_checker busy hl rfl hid
  exact (h actions host hrun p d hc hp).1 (hsame ▸ hport)

theorem AlwaysSeparate.clear (h : AlwaysSeparate launches busy) {d' : ℕ} {l l' : Launch}
    (hl : launches[d]? = some l) (hl' : launches[d']? = some l') (hne : d ≠ d')
    (hoffered : l.Offered) : l.Clear l' := by
  by_contra hnot
  obtain ⟨id, hid, id', hid', hport⟩ := Launch.not_clear_iff.mp hnot
  -- the copy of the one deployment boots, and then the other copy is forked
  obtain ⟨actions, t, p, hc, argv, ht, hsince, hp, hsame, -, hbooting, hservice, hfirst⟩ :=
    (sound_init launches).exists_checker busy hl rfl hid
  have hbusy : pongPort l.service id ∉ busy := hsame ▸ (h actions t ht p d hc hp).1
  have hserver : t.construct busy p l.service id true = some (.server p l.service id) := by
    apply construct_eq hoffered hbusy
    intro q process hq hbound
    cases process with
    | starter e argv => cases hbound
    | checker e hc => cases hbound
    | booting p' argv => cases hbound
    | server p' service id => exact absurd (hsince.running q p' service id hq) (Nat.not_lt_zero q)
  have hboot : t.step launches busy (.boot hc.pid true) =
      some (t.become hc.pid (some (.server p l.service id))) := by
    simp only [Host.step, hbooting, hservice, hfirst, hserver]
  have hu := (sound_init launches).run ht |>.step hboot
  obtain ⟨actions', v, p', hc', argv', hv, hsince', hp', hsame', hnew, -⟩ :=
    hu.exists_checker busy hl' (hsince.started d' hne.symm) hid'
  have hrun : Machine.run (Host.step launches busy) init
      (actions ++ .boot hc.pid true :: actions') = some v := by
    rw [Machine.run_append_of_run ht]
    exact Machine.run_cons_eq_some.mpr ⟨_, hboot, hv⟩
  have hlistens : v.process hc.pid = some (.server p l.service id) := by
    have hthere :=
      (process_become t hc.pid hc.pid (some (.server p l.service id))).trans (if_pos rfl)
    exact (hsince'.process _ (hu.lt_next hthere)).trans hthere
  obtain ⟨hown, -⟩ := (h _ v hrun p' d' hc' hp').2 hc.pid _ hlistens (by
    rw [hsame', ← hport]
    rfl)
  have hlt : hc.pid < (t.become hc.pid (some (.server p l.service id))).next := by
    exact hu.lt_next ((process_become ..).trans (if_pos rfl))
  omega

/-- **When the health checkers of a host watch their own copies.**  At any moment of any run no
health checker sends its pings to another copy or to one of the `busy` ports if and only if no
deployment reaches up to a port of those, or up to the ports of another one, unless neither of the
two services is offered. -/
theorem separate_iff (launches : List Launch) (busy : List UInt16) :
    AlwaysSeparate launches busy ↔ (∀ l ∈ launches, ∀ port ∈ busy, l.Avoids port) ∧
      launches.Pairwise fun l l' => l.Offered ∨ l'.Offered → l.Clear l' := by
  rw [List.pairwise_iff_getElem]
  constructor
  · intro h
    refine ⟨fun l hl port hport => ?_, fun d d' hd hd' hlt hoffered => ?_⟩
    · obtain ⟨d, hd⟩ := List.mem_iff_getElem?.mp hl
      exact h.avoids hd hport
    · have hl := List.getElem?_eq_getElem hd
      have hl' := List.getElem?_eq_getElem hd'
      rcases hoffered with hoffered | hoffered
      · exact h.clear hl hl' hlt.ne hoffered
      · exact (h.clear hl' hl hlt.ne' hoffered).symm
  · rintro ⟨havoids, hpairs⟩ actions host hrun
    apply ((sound_init launches).run hrun).separate havoids
    intro d d' l l' hl hl' hne hoffered
    obtain ⟨hd, rfl⟩ := List.getElem?_eq_some_iff.mp hl
    obtain ⟨hd', rfl⟩ := List.getElem?_eq_some_iff.mp hl'
    rcases lt_or_gt_of_ne hne with hlt | hgt
    · exact hpairs d d' hd hd' hlt (.inl hoffered)
    · exact (hpairs d' d hd' hd hgt (.inr hoffered)).symm

end Host

end ReliableService
