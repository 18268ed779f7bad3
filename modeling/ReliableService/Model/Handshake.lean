import ReliableService.Lib.Machine
import ReliableService.Clients.Disconnect
import ReliableService.Model.ServerLoop

/-!
# The registration of one copy

One copy, a broker that may be killed at any moment and started again, and the registration
messages between them.  What is assumed of the network: a request the broker's process has not
got yet waits in the `REQ` socket of the copy, whether there is a broker or not; a request it
has got is not sent again when the process ends; an answer that has left the process arrives.

An iteration of the copy is cut in two at the receive of `register_service`, which waits for
up to 500 ms, so that the rest of the system can go on meanwhile (`iterate_eq`).
-/

namespace ReliableService

namespace ServerLoop

/-- An iteration up to the receive of `register_service`, which sets the flag before it. -/
def beginIteration (service : ServiceType) (l : ServerLoop) (i : Iteration) :
    ServerEffect ServerLoop := do
  let l ← l.serveBroker i
  pongHealthChecker i
  if l.regOk then pure l
  else do
    sendRegistration ⟨"pippo", service⟩ l.sendReg
    pure { l with sendReg := true }

/-- The rest of the iteration. -/
def endIteration (service : ServiceType) (l : ServerLoop) (i : Iteration) :
    ServerEffect ServerLoop := do
  let l ← l.tryRegistration service i
  l.checkDeadline i

/-- The two parts make up the iteration. -/
theorem iterate_eq (service : ServiceType) (l : ServerLoop) (i : Iteration) :
    l.iterate service i = (do
      let l ← l.beginIteration service i
      l.endIteration service i) := by
  unfold iterate beginIteration endIteration
  simp only [bind_assoc]
  congr 1
  funext l
  congr 1
  funext _
  unfold tryRegistration registration registerService sendRegistration
  by_cases hok : l.regOk = true
  · simp [hok]
  · by_cases hsend : l.sendReg = true
    · simp [hok, hsend]
    · simp [hok, hsend]

end ServerLoop

/-- A registration as it is sent. -/
def ServerAct.registration? : ServerAct → Option RegistrationModule
  | .register rm => some rm
  | _ => none

/-- The answer to a registration. -/
def Output.port? : Output → Option UInt16
  | .reg port => some port
  | _ => none

structure Handshake (nmr : UInt8) where
  copy : ServerLoop
  /-- The iteration that is waiting for the answer. -/
  waiting : Option Iteration
  /-- Requests the broker's process has not got yet. -/
  outgoing : List RegistrationModule
  broker : Option (Broker nmr)
  /-- Requests the broker's process has got and not answered. -/
  delivered : List RegistrationModule
  /-- Answers that have not left the broker's process. -/
  answering : List UInt16
  /-- Answers on their way to the copy. -/
  incoming : List UInt16

/-- What can happen next. -/
inductive HandshakeAction
  /-- The copy begins an iteration. -/
  | poll (i : Iteration)
  /-- The wait of the copy ends: with the first answer that has arrived, or without one. -/
  | receive (arrives : Bool)
  | deliver
  /-- `get_registration` for the first request of the copy. -/
  | answer (now : Timespec)
  | flush
  /-- The broker does something else. -/
  | event (moment : Moment)
  | kill
  | restart (portRouter portReg : UInt16)

namespace Handshake

variable {nmr : UInt8}

/-- A copy that starts, and no broker yet. -/
def init : Handshake nmr := ⟨ServerLoop.init, none, [], none, [], [], []⟩

/-- The copy has gone on. -/
def proceed (s : Handshake nmr) (outcome : ServerEffect ServerLoop) (waiting : Option Iteration) :
    Option (Handshake nmr) :=
  outcome.result.toOption.map fun copy =>
    { s with
      copy := copy
      waiting := waiting
      outgoing := s.outgoing ++ outcome.sent.filterMap ServerAct.registration? }

/-- The process of the broker ends, and with it what it has. -/
def brokerEnds (s : Handshake nmr) : Handshake nmr :=
  { s with broker := none, delivered := [], answering := [] }

/-- The broker has run a handler. -/
def brokerRuns (s : Handshake nmr) (outcome : Effect (Broker nmr)) : Handshake nmr :=
  match outcome.result with
  | .ok b => { s with broker := some b }
  | .error _ => s.brokerEnds

def step (service : ServiceType) (s : Handshake nmr) : HandshakeAction → Option (Handshake nmr)
  | .poll i =>
      if s.waiting.isNone then s.proceed (s.copy.beginIteration service i) (some i) else none
  | .receive arrives =>
      match s.waiting with
      | none => none
      | some i =>
          if arrives then
            match s.incoming with
            | [] => none
            | port :: rest =>
                -- a copy that is registered does not receive
                if s.copy.regOk then none
                else { s with incoming := rest }.proceed
                  (s.copy.endIteration service { i with answer := some port }) none
          else s.proceed (s.copy.endIteration service { i with answer := none }) none
  | .deliver =>
      match s.broker, s.outgoing with
      | some _, rm :: rest => some { s with outgoing := rest, delivered := s.delivered ++ [rm] }
      | _, _ => none
  | .answer now =>
      match s.broker, s.delivered with
      | some b, rm :: rest =>
          let outcome := b.getRegistration rm now
          some ({ s with
            delivered := rest
            answering := s.answering ++ outcome.sent.filterMap Output.port? }.brokerRuns outcome)
      | _, _ => none
  | .flush =>
      match s.answering with
      | [] => none
      | port :: rest => some { s with answering := rest, incoming := s.incoming ++ [port] }
  | .event moment =>
      match s.broker with
      | none => none
      | some b => some (s.brokerRuns (b.handle moment.connected moment.event))
  | .kill => if s.broker.isSome then some s.brokerEnds else none
  | .restart portRouter portReg =>
      if s.broker.isNone then some { s with broker := some (Broker.init portRouter portReg) }
      else none

end Handshake

end ReliableService
