import ReliableService.Lib.Mirror
import ReliableService.Model.ServerLoop

/-!
# The poll set of a copy

`RSF_Server::step` once more, with the sockets it works on.  The poll set holds the socket of the
health checker, and after a registration the socket that is connected to the broker, which
`reply` points to as well.  A further registration deletes that socket and makes another one, and
its entry leaves the poll set when the broker is taken for dead.

Sockets are numbered as they are made.  There may be messages at any of them: a wake-up says for
each what a poll would find.  The first registration deletes `reply` too, which the constructor
does not write: that is well where the memory of the object held a null pointer.
-/

namespace ReliableService

/-- An entry of the poll set. -/
inductive ServerItem
  | hcPong
  | reply (socket : ℕ)
  deriving DecidableEq, Repr

/-- A pointer to a socket. -/
inductive SocketPointer
  | null
  /-- Never written, and by chance not null. -/
  | wild
  | socket (number : ℕ)
  deriving DecidableEq, Repr

/-- The entry of the socket it points to. -/
def SocketPointer.item? : SocketPointer → Option ServerItem
  | .socket number => some (.reply number)
  | .null => none
  | .wild => none

/-- `RSF_Server`, with its sockets. -/
structure PolledServer where
  loop : ServerLoop
  items : List ServerItem
  reply : SocketPointer
  /-- How many sockets `reply` has pointed to. -/
  made : ℕ
  deriving DecidableEq, Repr

/-- What one iteration meets. -/
structure ServerWakeUp where
  polled : Timespec
  /-- The first message at each of the sockets that are connected to the broker. -/
  waiting : ℕ → Option ServiceModule
  received : Timespec
  healthCheckerPing : Bool
  answer : Option UInt16
  registered : Timespec
  expired : Timespec

/-- What can go wrong with the sockets. -/
inductive PollFault
  /-- `zmq::error_t` from a poll of a socket that is deleted. -/
  | notSocket
  /-- A `std::vector` is indexed past its end, or an element of an empty one erased. -/
  | outOfRange
  /-- A `recv` that waits for ever. -/
  | blocked
  /-- A pointer that is not to a socket is followed, or one that was never written deleted. -/
  | badPointer
  /-- What else ends a copy. -/
  | fault (fault : Fault)
  deriving DecidableEq, Repr

/-- A computation of a copy that polls. -/
abbrev PollEffect := Outcome ServerAct PollFault

/-- `SERVER_PONG_INDEX` -/
def serverPongIndex : ℕ := 0

/-- `SERVICE_REQUEST_INDEX` -/
def serviceRequestIndex : ℕ := 1

/-- The poll finds a message at this entry. -/
def ServerWakeUp.ready (w : ServerWakeUp) : ServerItem → Bool
  | .hcPong => w.healthCheckerPing
  | .reply socket => (w.waiting socket).isSome

namespace PolledServer

/-- The constructor, and the start of `step`; `zeroed` says what the memory of the object held
where `reply` is. -/
def init (zeroed : Bool) : PolledServer :=
  ⟨ServerLoop.init, [.hcPong], if zeroed then .null else .wild, 0⟩

/-- `zmq::poll` -/
def poll (p : PolledServer) : PollEffect Unit :=
  if p.items.all fun item => item = .hcPong || some item = p.reply.item? then pure ()
  else Outcome.fail .notSocket

/-- `items[index].revents & ZMQ_POLLIN` -/
def pollIn (w : ServerWakeUp) (p : PolledServer) (index : ℕ) : PollEffect Bool :=
  match p.items[index]? with
  | none => Outcome.fail .outOfRange
  | some item => pure (w.ready item)

/-- The first block of the loop.  The message is taken from `reply`, whatever the entry is. -/
def serveBroker (w : ServerWakeUp) (p : PolledServer) : PollEffect PolledServer :=
  if p.loop.regOk then do
    if ← p.pollIn w serviceRequestIndex then
      match p.reply with
      | .socket socket =>
          match w.waiting socket with
          | none => Outcome.fail .blocked
          | some sm => do
              let (server, reaction) := p.loop.server.receive sm
              Outcome.tell (.react sm reaction)
              pure { p with loop := { p.loop with
                server := server
                deadline := timeAddMs w.received (heartbeatInterval + wcdPing) } }
      | .null => Outcome.fail .badPointer
      | .wild => Outcome.fail .badPointer
    else pure p
  else pure p

/-- The second block: `pong_health_checker`. -/
def pongHealthChecker (w : ServerWakeUp) (p : PolledServer) : PollEffect Unit := do
  if ← p.pollIn w serverPongIndex then
    if w.healthCheckerPing then Outcome.tell .pongHealthChecker else Outcome.fail .blocked
  else pure ()

/-- `delete reply` -/
def deleteReply (p : PolledServer) : PollEffect Unit :=
  if p.reply = .wild then Outcome.fail .badPointer else pure ()

/-- The third block.  A registration makes a socket, and an entry for it. -/
def tryRegistration (service : ServiceType) (w : ServerWakeUp) (p : PolledServer) :
    PollEffect PolledServer :=
  if p.loop.regOk then pure p
  else do
    let (brokerPort, sendReg) ←
      Outcome.mapFault .fault (registration service p.loop.sendReg w.answer)
    match brokerPort with
    | some port =>
        if 0 < port then do
          Outcome.tell (.registrationOk port)
          p.deleteReply
          pure { loop := { p.loop with
                   sendReg := sendReg
                   regOk := true
                   pingLoss := 0
                   deadline := timeAddMs w.registered (heartbeatInterval + wcdPing) }
                 items := p.items ++ [.reply p.made]
                 reply := .socket p.made
                 made := p.made + 1 }
        else Outcome.fail (.fault .exitFailure)
    | none => pure { p with loop := { p.loop with sendReg := sendReg } }

/-- The fourth block.  The last entry is erased when the broker is taken for dead. -/
def checkDeadline (w : ServerWakeUp) (p : PolledServer) : PollEffect PolledServer :=
  if timeCmp w.polled p.loop.deadline = 1 ∧ p.loop.regOk then do
    Outcome.tell .brokerPingTimeout
    let loop := { p.loop with
      deadline := timeAddMs w.expired (heartbeatInterval + wcdPing)
      pingLoss := p.loop.pingLoss + 1 }
    if loop.pingLoss = liveness then do
      Outcome.tell .brokerDead
      if p.items = [] then Outcome.fail .outOfRange
      else pure { p with loop := { loop with regOk := false }, items := p.items.dropLast }
    else pure { p with loop := loop }
  else pure p

/-- One iteration of `step`. -/
def iterate (service : ServiceType) (p : PolledServer) (w : ServerWakeUp) :
    PollEffect PolledServer := do
  p.poll
  let p ← p.serveBroker w
  p.pongHealthChecker w
  let p ← p.tryRegistration service w
  p.checkDeadline w

/-- `step`, for as many iterations as the list holds. -/
def run (service : ServiceType) (p : PolledServer) (wakeUps : List ServerWakeUp) :
    PollEffect PolledServer :=
  wakeUps.foldlM (iterate service) p

end PolledServer

end ReliableService
