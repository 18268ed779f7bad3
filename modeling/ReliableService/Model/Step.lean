import ReliableService.Lib.Channels
import ReliableService.Registration.Positions

/-!
# The loop of the broker

`RSF_Broker::step`.  Every wake-up polls, reads the clock once and calls the handlers in a
fixed order: the health checker, the registration socket, the client socket, the dealer
sockets from the first to the last, the deadlines, and the pending requests.  Each socket is
read at most once.

The handlers were modelled one call at a time; here the calls are made as `step` makes them.
A `WakeUp` holds what the poll finds and what the clock shows.  `zmq::poll` writes `revents`
of the entries it polls, so an entry that `add_dealer` appends in the same wake-up still has
the zero it was made with: its socket is looked at, and not read.
-/

namespace ReliableService

/-- What one wake-up finds, and the clock readings it makes. -/
structure WakeUp where
  /-- `now`, read right after the poll. -/
  now : Timespec
  /-- The poll finds a ping of the health checker. -/
  healthCheckerPing : Bool
  /-- The registration that is there, and the clock when its service becomes available. -/
  registration : Option (RegistrationModule × Timespec)
  /-- The request that is there, and the clock of `push_request` and of `update_timeout`. -/
  request : Option (ClientId × RequestModule × Timespec × Timespec)
  /-- The first reply at `dealer[i]`. -/
  reply : ℕ → Option (ServerReply × ClientId)
  /-- The clock of `update_timeout` after a heartbeat at position `i`. -/
  renewed : ℕ → Timespec
  /-- The clock of `check_pending_requests`. -/
  swept : Timespec
  /-- The clients that are connected during a call. -/
  connected : Event → ClientId → Bool

/-- What `step` sends. -/
inductive StepOutput
  /-- To the health checker. -/
  | pong
  | handler (output : Output)
  deriving DecidableEq

/-- A computation of `step`. -/
abbrev StepEffect := Outcome StepOutput Fault

/-- What the handlers have sent. -/
def StepOutput.output? : StepOutput → Option Output
  | .pong => none
  | .handler output => some output

namespace Broker

variable {nmr : UInt8}

/-- `ROUTER_POLL_INDEX` -/
def routerPollIndex : ℕ := 0

/-- `REG_POLL_INDEX` -/
def regPollIndex : ℕ := 1

/-- `HC_POLL_INDEX` -/
def hcPollIndex : ℕ := 2

/-- `items[index].revents & ZMQ_POLLIN`, and the message that is there; the poll has seen the
first `polled` entries. -/
def pollIn {α : Type} (b : Broker nmr) (polled index : ℕ) (message : Option α) :
    StepEffect (Option α) :=
  if index < b.items.length then pure (if index < polled then message else none)
  else Outcome.fail .outOfRange

/-- A call of a handler. -/
def call (w : WakeUp) (b : Broker nmr) (event : Event) : StepEffect (Broker nmr) :=
  Outcome.relay .handler (b.handle (w.connected event) event)

/-- `pong_health_checker` -/
def pongHealthChecker (w : WakeUp) (polled : ℕ) (b : Broker nmr) : StepEffect Unit := do
  match ← b.pollIn polled hcPollIndex (if w.healthCheckerPing then some () else none) with
  | none => pure ()
  | some () => Outcome.tell .pong

/-- The registration socket. -/
def pollRegistration (w : WakeUp) (polled : ℕ) (b : Broker nmr) : StepEffect (Broker nmr) := do
  match ← b.pollIn polled regPollIndex w.registration with
  | none => pure b
  | some (rm, now) => b.call w (.registration rm now)

/-- The client socket. -/
def pollRequest (w : WakeUp) (polled : ℕ) (b : Broker nmr) : StepEffect (Broker nmr) := do
  match ← b.pollIn polled routerPollIndex w.request with
  | none => pure b
  | some (c, request, now, later) => b.call w (.request c request now later)

/-- The body of the loop over the dealer sockets. -/
def pollDealer (w : WakeUp) (polled : ℕ) (b : Broker nmr) (i : ℕ) : StepEffect (Broker nmr) := do
  match ← b.pollIn polled (i + dealerPollIndex) (w.reply i) with
  | none => pure b
  | some (serverReply, c) => b.call w (.response i serverReply c)

/-- The body of the loop over the deadlines. -/
def pollTimeout (w : WakeUp) (b : Broker nmr) (i : ℕ) : StepEffect (Broker nmr) :=
  b.call w (.heartbeat i w.now (w.renewed i))

/-- One wake-up.  No body changes the size its loop runs to. -/
def wakeUp (b : Broker nmr) (w : WakeUp) : StepEffect (Broker nmr) := do
  let polled := b.items.length
  b.pongHealthChecker w polled
  let b ← b.pollRegistration w polled
  let b ← b.pollRequest w polled
  let b ← (List.range b.dealer.length).foldlM (pollDealer w polled) b
  let b ← (List.range b.timeout.length).foldlM (pollTimeout w) b
  b.call w (.sweep w.swept)

/-- `step`, for as many wake-ups as the list holds. -/
def step (b : Broker nmr) (wakeUps : List WakeUp) : StepEffect (Broker nmr) :=
  wakeUps.foldlM wakeUp b

end Broker

end ReliableService
