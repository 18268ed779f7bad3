import ReliableService.Lib.Machine
import ReliableService.Model.Broker

/-!
# Clients and sessions

A client is a `REQ` socket: `request_service` sends one request and blocks in `recv`
until a response to it is there.  The `Ledger` is the clients' side of a run.  It numbers
the requests in the order in which they reach the broker and books every response the
broker sends on the request its client made last.

A `Session` is a broker with its clients.  Its step is one call of a handler; requests
are admitted only from clients that are not waiting, and nothing happens any more once a
handler has failed.
-/

namespace ReliableService

/-- One request, as its client sent it. -/
structure Ask where
  clientId : ClientId
  request : RequestModule
  deriving DecidableEq

/-- The requests of all clients, each client's last one, and the responses booked. -/
structure Ledger where
  asks : List Ask
  latest : ClientId → Option ℕ
  responses : List (ℕ × ResponseModule)

namespace Ledger

def init : Ledger := ⟨[], fun _ => none, []⟩

/-- The requests that have a response, one entry for each response. -/
def answered (l : Ledger) : List ℕ := l.responses.map Prod.fst

/-- The client is blocked in `recv` for a response to request `n`. -/
def Waiting (l : Ledger) (c : ClientId) (n : ℕ) : Prop := l.latest c = some n ∧ n ∉ l.answered

instance (l : Ledger) (c : ClientId) (n : ℕ) : Decidable (l.Waiting c n) :=
  inferInstanceAs (Decidable (_ ∧ _))

/-- The client may send a request. -/
def idle (l : Ledger) (c : ClientId) : Bool :=
  match l.latest c with
  | none => true
  | some n => n ∈ l.answered

/-- A request reaches the broker. -/
def ask (l : Ledger) (c : ClientId) (request : RequestModule) : Ledger where
  asks := l.asks ++ [⟨c, request⟩]
  latest := fun other => if other = c then some l.asks.length else l.latest other
  responses := l.responses

/-- A response is sent to a client. -/
def respond (l : Ledger) (c : ClientId) (response : ResponseModule) : Ledger :=
  match l.latest c with
  | none => l
  | some n => { l with responses := l.responses ++ [(n, response)] }

/-- What a message of the broker means to the clients. -/
def observe (l : Ledger) : Output → Ledger
  | .router c response => l.respond c response
  | .dealer _ _ _ => l
  | .reg _ => l

def observeAll (l : Ledger) (sent : List Output) : Ledger := sent.foldl observe l

/-- A call of a handler is possible as far as the clients go. -/
def admits (l : Ledger) : Event → Bool
  | .request c _ _ _ => l.idle c
  | _ => true

/-- The message a handler receives is booked before the handler runs. -/
def opened (l : Ledger) : Event → Ledger
  | .request c request _ _ => l.ask c request
  | _ => l

end Ledger

/-- A broker with its clients; no broker once a handler has failed. -/
structure Session (nmr : UInt8) where
  broker : Option (Broker nmr)
  ledger : Ledger

namespace Session

variable {nmr : UInt8}

def init (portRouter portReg : UInt16) : Session nmr :=
  ⟨some (Broker.init portRouter portReg), Ledger.init⟩

/-- One call of a handler. -/
def step (s : Session nmr) (event : Event) : Option (Session nmr) :=
  match s.broker with
  | none => none
  | some b =>
      if s.ledger.admits event then
        let outcome := b.handle Broker.everyone event
        some ⟨outcome.result.toOption, (s.ledger.opened event).observeAll outcome.sent⟩
      else none

end Session

end ReliableService
