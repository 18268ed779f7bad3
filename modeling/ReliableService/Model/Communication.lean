import ReliableService.Lib.Outcome

/-!
# Messages, constants and the ways a broker ends

The frames of `communication.hpp` and `rsf_api.hpp` as values.  Every number that
crosses the wire is swapped by `htonl`/`htons` on one side and swapped back on the
other, so the model carries the host-order number.  An envelope `[0, id, "" ]` is
the client identifier it holds.

Two C++ facts shape the types:

* `service_type_t` is an enumeration, but the broker casts whatever 32-bit number
  it receives to it and compares nothing, so a service type is any `UInt32`;
* several structs are sent with fields their sender never wrote.  Such a field is
  an `Option`, `none` when it was left uninitialised.
-/

namespace ReliableService

/-- `service_type_t`, as received: `INCREMENT` is `0`, `DECREMENT` is `1`, … -/
abbrev ServiceType := UInt32

/-- The four random bytes of a client's identity frame. -/
abbrev ClientId := UInt32

/-! ## Constants -/

def heartbeatInterval : Int := 2000

def requestTimeout : Int := 5000

/-- `LIVENESS`: lost pongs that make a copy unreliable. -/
def liveness : Int := 3

/-- `PARAM_SIZE` -/
def paramSize : ℕ := 100

def regPortBroker : UInt16 := 5555

def routerPortBroker : UInt16 := 5559

def dealerStartPort : UInt16 := 6000

def brokerPongPort : UInt16 := 8000

/-- `REG_FAIL`, the port that tells a copy it was not registered. -/
def regFail : UInt16 := 0

/-- The identity frame `ping_server` makes up: four times the letter `a`. -/
def pingEnvelope : ClientId := 0x61616161

/-! ## Frames -/

/-- The `char[PARAM_SIZE]` that carries the serialized arguments. -/
abbrev Parameters := Vector UInt8 paramSize

/-- `request_module`, from a client to the broker. -/
structure RequestModule where
  service : ServiceType
  parameters : Parameters
  deriving DecidableEq

inductive ServiceStatus
  | serviceAvailable
  | serviceNotAvailable
  | serviceNotReliable
  deriving DecidableEq, Repr

/-- `response_module`, from the broker to a client. -/
structure ResponseModule where
  serviceStatus : ServiceStatus
  result : Option Int32
  deriving DecidableEq, Repr

/-- `service_module`, from the broker to a copy: a ping when `heartbeat` is set. -/
structure ServiceModule where
  heartbeat : Bool
  seqId : UInt32
  parameters : Option Parameters
  deriving DecidableEq

/-- `server_reply_t`, from a copy to the broker. -/
structure ServerReply where
  heartbeat : Bool
  duplicated : Bool
  result : Int32
  service : ServiceType
  id : UInt8
  deriving DecidableEq, Repr

/-- `registration_module`, from a copy to the broker.  It does not say which copy. -/
structure RegistrationModule where
  signature : String
  service : ServiceType
  deriving DecidableEq

/-! ## What the broker sends, and how it can end -/

/-- A message the broker hands to one of its sockets. -/
inductive Output
  /-- On the `ROUTER` socket, to a client. -/
  | router (clientId : ClientId) (response : ResponseModule)
  /-- On `dealer[index]`, with an envelope. -/
  | dealer (index : ℕ) (envelope : ClientId) (sm : ServiceModule)
  /-- On the registration socket, to the copy that is registering. -/
  | reg (port : UInt16)
  deriving DecidableEq

/-- The ways in which a handler does not return. -/
inductive Fault
  /-- `exit(EXIT_FAILURE)` -/
  | exitFailure
  /-- A `std::vector` is indexed past its end. -/
  | outOfRange
  /-- `zmq::error_t` from a send to a client that is gone; nothing catches it. -/
  | hostUnreachable
  /-- `zmq::error_t` from a bind to a port that is taken; nothing catches it. -/
  | addressInUse
  /-- A loop that never ends. -/
  | endless
  deriving DecidableEq, Repr

/-- A broker computation. -/
abbrev Effect := Outcome Output Fault

end ReliableService
