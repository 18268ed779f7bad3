import Mathlib.Logic.Function.Basic
import ReliableService.Lib.CString
import ReliableService.Model.DeploymentUnit
import ReliableService.Model.Services

/-!
# The processes of a host

How a copy comes into being.  A deployment unit forks a process for each copy
(`RSF_start_server`), that process forks the copy (`RSF_server`) and becomes its health checker,
and the health checker forks another one whenever it gives the copy up.  The service and the
identifier of the copy travel through all of this as the first characters of two strings.

`execlp` is handed the addresses of single characters.  A string that starts there goes on until
memory holds a terminator, so what stands behind the characters is an argument here; where there
is no terminator the call fails and the process that made it exits.

The processes run side by side: a step of the `Host` is a step of one of them.  When a health
checker restarts its copy is not said here, `Watch` does that.  A process number is not used
twice, since a health checker never waits for the processes it has started.
-/

namespace ReliableService

/-- `MAX_NMR` -/
def maxNmr : ℕ := 5

/-- `SERVER_PONG_PORT` -/
def serverPongPort : ℕ := 7000

/-- The port of the pongs of a copy, which its health checker and the copy itself compute. -/
def pongPort (service id : UInt8) : UInt16 :=
  UInt16.ofNat (serverPongPort + id.toNat + service.toNat * maxNmr)

/-- `argv[0]` and `argv[1]`.  There are always two, as many as `HB_ARGS` asks for. -/
abbrev Argv := List UInt8 × List UInt8

/-- `execlp` with the addresses of two characters, and what stands behind them. -/
def execlp (arg0 arg1 : UInt8) (behind0 behind1 : List UInt8) : Option Argv := do
  let argv0 ← cString 0 (arg0 :: behind0)
  let argv1 ← cString 0 (arg1 :: behind1)
  pure (argv0, argv1)

/-- `*argv[i]`, which of an empty string is the terminator. -/
def firstChar (argv : List UInt8) : UInt8 := argv.headD 0

/-- What a deployment unit was started with, once `main` has let it pass. -/
structure Launch where
  service : UInt8
  numCopyServer : UInt8
  enough : numMinNmr ≤ numCopyServer

/-- `HealthCheckerServer` -/
structure HealthCheckerServer where
  pid : ℕ
  port : UInt16
  serverId : UInt8
  service : UInt8
  deriving DecidableEq, Repr

inductive Process
  /-- `RSF_start_server`, forked by this deployment unit and not yet running. -/
  | starter (deployment : ℕ) (argv : Argv)
  /-- `RSF_start_server`, in `step`. -/
  | checker (deployment : ℕ) (hc : HealthCheckerServer)
  /-- `RSF_server`, forked by this health checker and not yet running. -/
  | booting (checker : ℕ) (argv : Argv)
  /-- `RSF_server`, in `step`. -/
  | server (checker : ℕ) (service id : UInt8)
  deriving DecidableEq, Repr

/-- The port the constructor of a copy has bound. -/
def Process.bound : Process → Option UInt16
  | .server _ service id => some (pongPort service id)
  | .starter _ _ => none
  | .checker _ _ => none
  | .booting _ _ => none

structure Host where
  /-- The `i` of each deployment unit. -/
  started : ℕ → UInt8
  process : ℕ → Option Process
  /-- The process number `fork` returns next. -/
  next : ℕ

inductive HostAction
  /-- One iteration of `deployment`. -/
  | fork (deployment : ℕ) (behind0 behind1 : List UInt8)
  /-- `main` of `RSF_start_server`. -/
  | start (pid : ℕ)
  /-- `main` of `RSF_server`; what the pointer holds that `get_service_body` may not write to. -/
  | boot (pid : ℕ) (garbage : Bool)
  /-- A copy ends. -/
  | crash (pid : ℕ)
  /-- `restart_process` -/
  | restart (pid : ℕ) (behind0 behind1 : List UInt8)
  deriving DecidableEq, Repr

namespace Host

def init : Host := ⟨fun _ => 0, fun _ => none, 0⟩

/-- A process becomes another one, or ends. -/
def become (host : Host) (pid : ℕ) (process : Option Process) : Host :=
  { host with process := Function.update host.process pid process }

/-- `fork`; the new process may be gone at once. -/
def spawn (host : Host) (process : Option Process) : Host :=
  { host.become host.next process with next := host.next + 1 }

/-- Some process of the host has bound the port, or one of the `busy` ones is it. -/
def taken (busy : List UInt16) (host : Host) (port : UInt16) : Bool :=
  busy.contains port ||
    (List.range host.next).any fun pid => (host.process pid).bind Process.bound = some port

/-- `get_service_body`, with its assertion. -/
def hasBody (service : UInt8) (garbage : Bool) : Bool :=
  match getServiceBody service.toUInt32 with
  | .error _ => false
  | .ok none => garbage
  | .ok (some _) => true

/-- The constructor of `RSF_Server`: what becomes of the process. -/
def construct (busy : List UInt16) (host : Host) (checker : ℕ) (service id : UInt8)
    (garbage : Bool) : Option Process :=
  if hasBody service garbage && !host.taken busy (pongPort service id) then
    some (.server checker service id)
  else none

def step (launches : List Launch) (busy : List UInt16) (host : Host) : HostAction → Option Host
  | .fork d behind0 behind1 => do
      let launch ← launches[d]?
      let i := host.started d
      -- the loop has ended, and the unit waits for its children
      if i = launch.numCopyServer then none
      else
        let argv := execlp launch.service i behind0 behind1
        some { host.spawn (argv.map (.starter d)) with
          started := Function.update host.started d (i + 1) }
  | .start pid =>
      match host.process pid with
      | some (.starter d argv) =>
          let srvService := firstChar argv.1
          let srvId := firstChar argv.2
          let hc := ⟨host.next, pongPort srvService srvId, srvId, srvService⟩
          some ((host.spawn (some (.booting pid argv))).become pid (some (.checker d hc)))
      | _ => none
  | .boot pid garbage =>
      match host.process pid with
      | some (.booting checker argv) =>
          some (host.become pid
            (host.construct busy checker (firstChar argv.1) (firstChar argv.2) garbage))
      | _ => none
  | .crash pid =>
      match host.process pid with
      | some (.booting _ _) => some (host.become pid none)
      | some (.server _ _ _) => some (host.become pid none)
      | _ => none
  | .restart pid behind0 behind1 =>
      match host.process pid with
      | some (.checker d hc) =>
          let argv := execlp hc.service hc.serverId behind0 behind1
          let hc' := { hc with pid := host.next }
          some (((host.become hc.pid none).spawn (argv.map (.booting pid))).become pid
            (some (.checker d hc')))
      | _ => none

end Host

end ReliableService
