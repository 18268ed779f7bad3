import ReliableService.Model.Clock
import ReliableService.Model.Server

/-!
# The loop of a server copy

`RSF_Server::step`: one iteration handles at most one message of the broker and one ping of
the health checker, registers if the copy is not registered, and then looks at the deadline.
The loop polls without waiting, so what an iteration meets is arbitrary: an `Iteration` holds
the messages that are there and the clock readings it makes.

The deadline `time_t` is renewed by every message of the broker, by a registration and by
its own expiry.  The count `ping_loss` is a variable of its own: an expiry raises it, and only
a registration sets it back.

`register_service` sends when its static flag says so and then waits for 500 ms.
-/

namespace ReliableService

/-- `WCDPING`: what a ping of the broker may be late by. -/
def wcdPing : Int := 500

/-- `RSF_Server`, with the locals of `step` and the static flag of `register_service`. -/
structure ServerLoop where
  server : Server
  regOk : Bool
  pingLoss : ℕ
  /-- `time_t`; the first registration writes it before anything reads it. -/
  deadline : Timespec
  sendReg : Bool
  deriving DecidableEq, Repr

/-- What one iteration meets. -/
structure Iteration where
  /-- `tmp_t`, read right after the poll. -/
  polled : Timespec
  /-- The first message of the broker, if the poll finds one. -/
  message : Option ServiceModule
  /-- The clock after that message is received. -/
  received : Timespec
  healthCheckerPing : Bool
  /-- The answer to the registration, if one comes within `TIMEOUT_RCV`. -/
  answer : Option UInt16
  /-- The clock after a registration. -/
  registered : Timespec
  /-- The clock after an expiry. -/
  expired : Timespec
  deriving DecidableEq

/-- What a copy sends or writes to its log. -/
inductive ServerAct
  /-- To a message of the broker. -/
  | react (sm : ServiceModule) (reaction : Reaction)
  | pongHealthChecker
  | register (rm : RegistrationModule)
  /-- "Registration Ok! Received port" -/
  | registrationOk (port : UInt16)
  /-- "Broker ping timeout" -/
  | brokerPingTimeout
  /-- "Broker dead" -/
  | brokerDead
  deriving DecidableEq

/-- A computation of a copy. -/
abbrev ServerEffect := Outcome ServerAct Fault

/-- The send of `register_service`, once for each answer. -/
def sendRegistration (regMod : RegistrationModule) (sendReg : Bool) : ServerEffect Unit :=
  if sendReg then pure () else Outcome.tell (.register regMod)

/-- `register_service`: the port, or `none` for `-1`, and what is left in `send_reg`. -/
def registerService (regMod : RegistrationModule) (sendReg : Bool) (answer : Option UInt16) :
    ServerEffect (Option UInt16 × Bool) := do
  sendRegistration regMod sendReg
  match answer with
  | none => pure (none, true)
  | some dealerPort => pure (some dealerPort, false)

/-- `Registrator::registration` -/
def registration (service : ServiceType) (sendReg : Bool) (answer : Option UInt16) :
    ServerEffect (Option UInt16 × Bool) :=
  registerService ⟨"pippo", service⟩ sendReg answer

namespace ServerLoop

/-- `RSF_Server::RSF_Server`, and the start of `step`. -/
def init : ServerLoop := ⟨Server.init, false, 0, ⟨0, 0⟩, false⟩

/-- The first block of the loop: a message of the broker. -/
def serveBroker (l : ServerLoop) (i : Iteration) : ServerEffect ServerLoop :=
  if l.regOk then
    match i.message with
    | none => pure l
    | some sm => do
        let (server, reaction) := l.server.receive sm
        Outcome.tell (.react sm reaction)
        pure { l with
          server := server
          deadline := timeAddMs i.received (heartbeatInterval + wcdPing) }
  else pure l

/-- The second block: `pong_health_checker`. -/
def pongHealthChecker (i : Iteration) : ServerEffect Unit :=
  if i.healthCheckerPing then Outcome.tell .pongHealthChecker else pure ()

/-- The third block: a copy that is not registered tries to.  Port `0` is `REG_FAIL`. -/
def tryRegistration (service : ServiceType) (l : ServerLoop) (i : Iteration) :
    ServerEffect ServerLoop :=
  if l.regOk then pure l
  else do
    let (brokerPort, sendReg) ← registration service l.sendReg i.answer
    match brokerPort with
    | some port =>
        if 0 < port then do
          Outcome.tell (.registrationOk port)
          pure { l with
            sendReg := sendReg
            regOk := true
            pingLoss := 0
            deadline := timeAddMs i.registered (heartbeatInterval + wcdPing) }
        else Outcome.fail .exitFailure
    | none => pure { l with sendReg := sendReg }

/-- The fourth block: the deadline. -/
def checkDeadline (l : ServerLoop) (i : Iteration) : ServerEffect ServerLoop :=
  if timeCmp i.polled l.deadline = 1 ∧ l.regOk then do
    Outcome.tell .brokerPingTimeout
    let l := { l with
      deadline := timeAddMs i.expired (heartbeatInterval + wcdPing)
      pingLoss := l.pingLoss + 1 }
    if l.pingLoss = liveness then do
      Outcome.tell .brokerDead
      pure { l with regOk := false }
    else pure l
  else pure l

/-- One iteration of `step`. -/
def iterate (service : ServiceType) (l : ServerLoop) (i : Iteration) : ServerEffect ServerLoop := do
  let l ← l.serveBroker i
  pongHealthChecker i
  let l ← l.tryRegistration service i
  l.checkDeadline i

/-- `step`, for as many iterations as the list holds. -/
def run (service : ServiceType) (l : ServerLoop) (iterations : List Iteration) :
    ServerEffect ServerLoop :=
  iterations.foldlM (iterate service) l

end ServerLoop

end ReliableService
