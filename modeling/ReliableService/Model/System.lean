import Mathlib.Logic.Function.Basic
import ReliableService.Lib.RoundRobin
import ReliableService.Model.Clients
import ReliableService.Model.Server

/-!
# The whole system

A broker with its clients, the server copies, and the messages between them.  What is
assumed of the network: a `DEALER` hands its messages to the connected peers in turn; each
connection is a queue in either direction; a `REP` socket answers one message at a time, in
order, with the envelope it came in.

Messages carry a number no party can see: the request that was being handled when they
were sent.
-/

namespace ReliableService

/-- A message on its way to a copy. -/
structure Delivery where
  envelope : ClientId
  sm : ServiceModule
  ask : ℕ
  deriving DecidableEq

/-- A message on its way to the broker. -/
structure Answer where
  envelope : ClientId
  reply : ServerReply
  ask : ℕ
  deriving DecidableEq

structure System (nmr : UInt8) (κ : Type) where
  session : Session nmr
  /-- The copies connected to `dealer[index]`. -/
  dealers : ℕ → Rotation κ
  server : κ → Server
  /-- The port a copy was told when it registered. -/
  port : κ → Option UInt16
  inbox : κ → List Delivery
  outbox : κ → List Answer

/-- What can happen next. -/
inductive Action (κ : Type)
  /-- A copy registers. -/
  | register (k : κ) (signature : String) (now : Timespec)
  /-- A copy's connection to the socket on its port comes up. -/
  | connect (k : κ) (index : ℕ)
  /-- A client's request reaches the broker. -/
  | request (c : ClientId) (request : RequestModule) (now later : Timespec)
  /-- A copy handles the first message of its queue. -/
  | process (k : κ) (scratch : Int32) (flag : Bool)
  /-- The first message of a copy reaches the broker. -/
  | deliver (k : κ) (index : ℕ)
  | heartbeat (i : ℕ) (now later : Timespec)
  | sweep (now : Timespec)

namespace System

variable {nmr : UInt8} {κ : Type} [DecidableEq κ]

def init (portRouter portReg : UInt16) : System nmr κ where
  session := Session.init portRouter portReg
  dealers := fun _ => Rotation.empty
  server := fun _ => Server.init
  port := fun _ => none
  inbox := fun _ => []
  outbox := fun _ => []

/-- What the broker sends when it handles an event. -/
def sends (s : System nmr κ) (event : Event) : List Output :=
  match s.session.broker with
  | none => []
  | some b => (b.handle Broker.everyone event).sent

/-- One message of the broker on its way.  `send_multi_msg` does not wait for a peer and does not
look at what became of the message. -/
def post (ask : ℕ) (s : System nmr κ) : Output → System nmr κ
  | .dealer index envelope sm =>
      match (s.dealers index).next with
      -- nobody is connected: the message is dropped
      | none => s
      | some (k, ring) => { s with
          dealers := Function.update s.dealers index ring
          inbox := Function.update s.inbox k (s.inbox k ++ [⟨envelope, sm, ask⟩]) }
  | .router _ _ => s
  | .reg _ => s

/-- The broker handles an event, and its messages are on their way. -/
def perform (s : System nmr κ) (event : Event) : Option (System nmr κ) := do
  let session ← s.session.step event
  some ((s.sends event).foldl (post s.session.ledger.asks.length) { s with session := session })

/-- The port in the answer to a registration, if it is not `REG_FAIL`. -/
def handedPort (sent : List Output) : Option UInt16 :=
  sent.findSome? fun
    | .reg port => if port = regFail then none else some port
    | _ => none

/-- A copy handles the first message of its queue. -/
def processFirst (d : Deployment κ) (s : System nmr κ) (k : κ) (scratch : Int32) (flag : Bool) :
    Option (System nmr κ) :=
  match s.inbox k with
  | [] => none
  | m :: rest =>
      let (server, reaction) := (s.server k).receive m.sm
      let reply := d.reply k m.sm scratch flag reaction
      some { s with
        server := Function.update s.server k server
        inbox := Function.update s.inbox k rest
        outbox := Function.update s.outbox k (s.outbox k ++ [⟨m.envelope, reply, m.ask⟩]) }

/-- The socket on this index is bound to the port the copy was told. -/
def reachable (s : System nmr κ) (k : κ) (index : ℕ) : Bool :=
  match s.session.broker, s.port k with
  | some b, some port => b.dealer[index]? = some port ∧ k ∉ (s.dealers index).peers
  | _, _ => false

def step (d : Deployment κ) (s : System nmr κ) : Action κ → Option (System nmr κ)
  | .register k signature now =>
      if s.port k = none then do
        let event := .registration ⟨signature, d.service k⟩ now
        let s' ← s.perform event
        some { s' with port := Function.update s'.port k (handedPort (s.sends event)) }
      else none
  | .connect k index =>
      if s.reachable k index then
        some { s with dealers := Function.update s.dealers index ((s.dealers index).join k) }
      else none
  | .request c request now later => s.perform (.request c request now later)
  | .process k scratch flag => s.processFirst d k scratch flag
  | .deliver k index =>
      match s.outbox k with
      | [] => none
      | a :: rest =>
          ({ s with outbox := Function.update s.outbox k rest } : System nmr κ).perform
            (.response index a.reply a.envelope)
  | .heartbeat i now later => s.perform (.heartbeat i now later)
  | .sweep now => s.perform (.sweep now)

/-! ## Three copies of one service -/

/-- Three copies of service `0`, which returns its first parameter byte. -/
def threeCopies (faulty : Finset (Fin 3)) : Deployment (Fin 3) where
  service := fun _ => 0
  id := fun k => UInt8.ofNat k.val
  faulty := faulty
  body := fun _ parameters => (UInt32.ofNat (parameters.get ⟨0, by decide⟩).toNat).toInt32

def copy0 : Fin 3 := 0

def copy1 : Fin 3 := 1

def copy2 : Fin 3 := 2

/-- All three register and connect. -/
def deployed : List (Action (Fin 3)) :=
  [.register copy0 "pippo" ⟨0, 0⟩, .register copy1 "pippo" ⟨0, 0⟩,
    .register copy2 "pippo" ⟨0, 0⟩, .connect copy0 0, .connect copy1 0, .connect copy2 0]

/-- A client asks for the value of a byte at time `now`. -/
def asking (c : ClientId) (byte : UInt8) (now : Int) : Action (Fin 3) :=
  .request c ⟨0, Vector.replicate paramSize byte⟩ ⟨now, 0⟩ ⟨now, 0⟩

/-- A copy handles its next message, and the reply arrives. -/
def working (k : Fin 3) : List (Action (Fin 3)) := [.process k 0 false, .deliver k 0]

end System

end ReliableService
