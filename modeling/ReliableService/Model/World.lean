import ReliableService.Model.System

/-!
# Brokers come and go

A `World` is a `System` whose broker may be killed and started again.  A new broker knows
nothing: its database is empty and it hands out the ports from `DEALER_START_PORT` on again, in
the order in which services register with it.

A copy keeps its `REP` socket until it is registered again, also after it has found the broker
dead and stopped listening to it.  The socket stays connected to the port of the copy whoever
binds that port: `connect` is its reconnection as well.  What is assumed beyond that: when a
broker ends, the messages that had not arrived yet may be lost, on either side; a socket that
is closed takes its messages with it.  A broker killed in the middle of a handler is one killed
after it, with the messages it did not send among the lost ones.
-/

namespace ReliableService

structure World (nmr : UInt8) (κ : Type) where
  system : System nmr κ
  /-- `reg_ok` of the copies: the socket is in their poll set. -/
  regOk : κ → Bool
  /-- The copy got its port from the broker that is running. -/
  told : κ → Bool

/-- What can happen next. -/
inductive WorldAction (κ : Type)
  | system (action : Action κ)
  | kill
  /-- A broker is started.  Of the messages on their way at the end of the last one, `received k`
  had arrived at copy `k`, and `sent k` replies of it are lost. -/
  | restart (portRouter portReg : UInt16) (received sent : κ → ℕ)
  /-- "Broker dead": the copy takes its socket out of the poll set. -/
  | brokerDead (k : κ)

namespace System

variable {nmr : UInt8} {κ : Type} [DecidableEq κ]

/-- The copy closes its socket. -/
def close (s : System nmr κ) (k : κ) : System nmr κ :=
  { s with
    dealers := fun index => (s.dealers index).leave k
    port := Function.update s.port k none
    inbox := Function.update s.inbox k []
    outbox := Function.update s.outbox k [] }

/-- A broker is started in the place of one that has ended. -/
def restart (s : System nmr κ) (portRouter portReg : UInt16) (received sent : κ → ℕ) :
    System nmr κ :=
  { s with
    session := { s.session with broker := some (Broker.init portRouter portReg) }
    dealers := fun _ => Rotation.empty
    inbox := fun k => (s.inbox k).take (received k)
    outbox := fun k => (s.outbox k).drop (sent k) }

end System

namespace World

variable {nmr : UInt8} {κ : Type} [DecidableEq κ]

def init (portRouter portReg : UInt16) : World nmr κ :=
  ⟨System.init portRouter portReg, fun _ => false, fun _ => false⟩

/-- The action is possible with the sockets as they are. -/
def admits (w : World nmr κ) : Action κ → Bool
  | .register k _ _ => !w.regOk k
  | .process k _ _ => w.regOk k
  | .deliver k index => k ∈ (w.system.dealers index).peers
  | _ => true

/-- A copy is registered again: it closes the socket it had, and has a new one if it was told a
port. -/
def register (d : Deployment κ) (w : World nmr κ) (k : κ) (signature : String) (now : Timespec) :
    Option (World nmr κ) := do
  let system ← (w.system.close k).step d (.register k signature now)
  some { system := system
         regOk := Function.update w.regOk k (system.port k).isSome
         told := Function.update w.told k (system.port k).isSome }

def step (d : Deployment κ) (w : World nmr κ) : WorldAction κ → Option (World nmr κ)
  | .system action =>
      if w.admits action then
        match action with
        | .register k signature now => w.register d k signature now
        | action => (w.system.step d action).map fun system => { w with system := system }
      else none
  | .kill =>
      some { w with system := { w.system with
        session := { w.system.session with broker := none }
        dealers := fun _ => Rotation.empty } }
  | .restart portRouter portReg received sent =>
      if w.system.session.broker.isNone then
        some { w with
          system := w.system.restart portRouter portReg received sent
          told := fun _ => false }
      else none
  | .brokerDead k =>
      if w.regOk k then some { w with regOk := Function.update w.regOk k false } else none

end World

end ReliableService
