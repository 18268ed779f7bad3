import Mathlib.Tactic.Common
import ReliableService.Model.Communication

/-!
# The health checkers

`HealthCheckerServer::step` and `HealthCheckerBroker::step` are the same loop with an interval
and a program of their own: a poll that ends with a pong or after the interval, and what is
done then.  The `REQ` socket sends a ping only after the pong to the last one.

The monitored process is the other half of a `Watch`.  It may crash at any point, and the
health checker kills and replaces it.  What is assumed of the network: a ping waits in the
socket until a process is there to take it; a process that has taken a ping and ends takes
the ping with it; a pong that has left the process arrives.  The incarnations of the process
are numbered in the place of their `pid`.
-/

namespace ReliableService

/-- `HEARTBEAT_LIVENESS` -/
def heartbeatLiveness : UInt8 := 3

/-- `HC_HEARTBEAT_INTERVAL` -/
def hcHeartbeatInterval : Int := 5000

/-- What one of the two health checkers has of its own. -/
structure HealthCheckerKind where
  /-- How long a poll waits, in milliseconds. -/
  interval : Int
  /-- What `restart_process` starts. -/
  program : String
  deriving DecidableEq, Repr

def healthCheckerServer : HealthCheckerKind := ⟨hcHeartbeatInterval, "./RSF_server"⟩

def healthCheckerBroker : HealthCheckerKind := ⟨heartbeatInterval, "./RSF_broker"⟩

/-- `HealthChecker`, with the local of `step` that lives from one poll to the next. -/
structure HealthChecker where
  pid : ℕ
  hbLiveness : UInt8
  pongArrived : Bool
  deriving DecidableEq, Repr

/-- What a health checker does after a poll. -/
inductive HealthAct
  | ping
  /-- `restart_process`: the process it kills, and the program it starts. -/
  | restart (killed : ℕ) (program : String)
  deriving DecidableEq, Repr

namespace HealthChecker

/-- The constructor, and the start of `step`, which sends the first ping. -/
def init (pid : ℕ) : HealthChecker := ⟨pid, heartbeatLiveness, false⟩

/-- A poll that finds the pong. -/
def pong (hc : HealthChecker) : HealthChecker :=
  { hc with hbLiveness := heartbeatLiveness, pongArrived := true }

/-- A poll that ends after the interval; `newPid` is what `fork` returns. -/
def timeout (kind : HealthCheckerKind) (hc : HealthChecker) (newPid : ℕ) :
    HealthChecker × Option HealthAct :=
  if hc.pongArrived then ({ hc with pongArrived := false }, some .ping)
  else if hc.hbLiveness - 1 = 0 then
    (⟨newPid, heartbeatLiveness, false⟩, some (.restart hc.pid kind.program))
  else ({ hc with hbLiveness := hc.hbLiveness - 1 }, none)

end HealthChecker

/-- Where the ping of the health checker is, or the pong to it. -/
inductive PingPlace
  /-- The pong has been received, and no ping has been sent since. -/
  | idle
  /-- No process has taken it. -/
  | queued
  /-- This incarnation has taken it and not answered. -/
  | taken (pid : ℕ)
  /-- The pong is there for the next poll. -/
  | answered
  deriving DecidableEq, Repr

structure Watch where
  hc : HealthChecker
  /-- The process `hc.pid` is running. -/
  alive : Bool
  /-- The process `hc.pid` has taken a ping. -/
  pinged : Bool
  ping : PingPlace
  deriving DecidableEq, Repr

/-- What can happen next. -/
inductive WatchAction
  /-- A poll finds the pong. -/
  | pong
  /-- A poll ends after the interval. -/
  | timeout
  /-- The process takes the ping. -/
  | deliver
  /-- `pong_health_checker` -/
  | answer
  | crash
  deriving DecidableEq, Repr

namespace Watch

/-- The first process has been started, and the first ping has been sent. -/
def init : Watch := ⟨HealthChecker.init 0, true, false, .queued⟩

/-- The health checker goes on after an interval. -/
def afterInterval (kind : HealthCheckerKind) (w : Watch) : Watch :=
  match w.hc.timeout kind (w.hc.pid + 1) with
  | (hc, some .ping) => { w with hc := hc, ping := .queued }
  | (hc, some (.restart _ _)) => { w with hc := hc, alive := true, pinged := false }
  | (hc, none) => { w with hc := hc }

def step (kind : HealthCheckerKind) (w : Watch) : WatchAction → Option Watch
  | .pong => if w.ping = .answered then some { w with hc := w.hc.pong, ping := .idle } else none
  | .timeout => if w.ping = .answered then none else some (w.afterInterval kind)
  | .deliver =>
      if w.ping = .queued ∧ w.alive then
        some { w with pinged := true, ping := .taken w.hc.pid }
      else none
  | .answer =>
      if w.ping = .taken w.hc.pid ∧ w.alive then some { w with ping := .answered } else none
  | .crash => if w.alive then some { w with alive := false } else none

end Watch

end ReliableService
