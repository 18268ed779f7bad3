import Mathlib.Data.Finset.Basic
import ReliableService.Model.Communication

/-!
# The server copies

`RSF_Server::step` for one message of the broker.  A copy answers a request whose sequence
number is the one it expects and flags every other one as duplicated; `0` stands for "no
request yet", so the first request sets what is expected, and so does the first one after
the counter has wrapped around.

The bodies of the services, the copies and which of them are faulty are parameters: a
`Deployment`.  A faulty copy runs the same loop and computes an arbitrary value.
-/

namespace ReliableService

/-- The sequence numbers of `RSF_Server`. -/
structure Server where
  pingId : UInt32
  requestId : UInt32
  deriving DecidableEq, Repr

/-- What a copy does about a message. -/
inductive Reaction
  | pong
  | answer
  | duplicated
  deriving DecidableEq, Repr

namespace Server

/-- `RSF_Server::RSF_Server` -/
def init : Server := ⟨0, 0⟩

/-- The branch of `step` that handles a message of the broker. -/
def receive (server : Server) (sm : ServiceModule) : Server × Reaction :=
  if sm.heartbeat then
    let pingId := if server.pingId = 0 then sm.seqId else server.pingId
    ({ server with pingId := if sm.seqId = pingId then pingId + 1 else pingId }, .pong)
  else
    let requestId := if server.requestId = 0 then sm.seqId else server.requestId
    if sm.seqId = requestId then ({ server with requestId := requestId + 1 }, .answer)
    else ({ server with requestId := requestId }, .duplicated)

end Server

/-- The copies: the service and the identifier of each, which of them are faulty, and the
service bodies as functions of the serialized parameters. -/
structure Deployment (κ : Type) where
  service : κ → ServiceType
  id : κ → UInt8
  faulty : Finset κ
  body : ServiceType → Parameters → Int32

namespace Deployment

variable {κ : Type} [DecidableEq κ]

/-- The reply a copy sends.  `scratch` and `flag` stand for what nobody has written: the
result of a duplicate or a pong, the `duplicated` field of a pong, and whatever a faulty
copy computes. -/
def reply (d : Deployment κ) (k : κ) (sm : ServiceModule) (scratch : Int32) (flag : Bool) :
    Reaction → ServerReply
  | .pong => ⟨true, flag, scratch, d.service k, d.id k⟩
  | .duplicated => ⟨false, true, scratch, d.service k, d.id k⟩
  | .answer =>
      ⟨false, false,
        if k ∈ d.faulty then scratch
        else d.body (d.service k) (sm.parameters.getD (Vector.replicate paramSize 0)),
        d.service k, d.id k⟩

@[simp] theorem reply_service (d : Deployment κ) (k : κ) (sm : ServiceModule) (scratch : Int32)
    (flag : Bool) (reaction : Reaction) :
    (d.reply k sm scratch flag reaction).service = d.service k := by
  cases reaction <;> rfl

@[simp] theorem reply_id (d : Deployment κ) (k : κ) (sm : ServiceModule) (scratch : Int32)
    (flag : Bool) (reaction : Reaction) : (d.reply k sm scratch flag reaction).id = d.id k := by
  cases reaction <;> rfl

end Deployment

end ReliableService
