import ReliableService.Lib.CString
import ReliableService.Lib.Decimal
import ReliableService.Model.Communication

/-!
# The arguments of a request

`request_service` serializes its arguments into a string, copies the string into the field
`parameters` of the request and waits for the response.  A copy takes the field out of the
message of the broker, and `task` deserializes it into the variables of the service.

A `std::string` is a list of bytes.  What an array holds before anything is written to it is an
argument (`scratch`).  The C functions know nothing of the size of the field, and leaving it is a
`MemoryFault`.
-/

namespace ReliableService

/-- What happens outside the field. -/
inductive MemoryFault
  /-- `strcpy` writes past the end. -/
  | overflow
  /-- A string is read past the end. -/
  | unterminated
  deriving DecidableEq, Repr

/-! ## The client -/

def space : UInt8 := 32

/-- `std::to_string` -/
def stdToString (h : Int32) : List UInt8 := Decimal.printInt h.toInt

/-- `serialize` -/
def serialize (str : List UInt8) : List Int32 → List UInt8
  | [] => str
  | h :: t => serialize (str ++ (stdToString h ++ [space])) t

/-- `RSF_Client::request_service`, for the response that comes back; `result` is what the
variable of the caller holds. -/
def requestService (service : ServiceType) (args : List Int32) (scratch : Parameters)
    (response : ResponseModule) (result : Option Int32) :
    Outcome RequestModule MemoryFault (Bool × Option Int32) :=
  match strcpy 0 scratch (serialize [] args) with
  | none => Outcome.fail .overflow
  | some parameters => do
      Outcome.tell ⟨service, parameters⟩
      match response.serviceStatus with
      | .serviceNotReliable => pure (false, result)
      | .serviceNotAvailable => pure (false, result)
      | .serviceAvailable => pure (true, response.result)

/-! ## The stream a copy reads -/

/-- `std::stringstream`: what is left to read, `failbit` and `eofbit`. -/
structure InStream where
  rest : List UInt8
  fail : Bool
  eof : Bool
  deriving DecidableEq, Repr

/-- A blank, or one of the control characters from the tab to the carriage return. -/
def isSpace (c : UInt8) : Bool := c = space || 9 ≤ c.toNat && c.toNat ≤ 13

namespace InStream

def ofText (text : List UInt8) : InStream := ⟨text, false, false⟩

/-- `params >> h`.  A stream that has failed or ended leaves the variable alone; text that is no
number stores `0`, and a number out of range the nearest one in range. -/
def extract (params : InStream) (h : Option Int32) : Option Int32 × InStream :=
  if params.fail || params.eof then (h, { params with fail := true })
  else
    let text := params.rest.dropWhile isSpace
    if text = [] then (h, ⟨[], true, true⟩)
    else
      let (value, rest) := Decimal.scanInt text
      match value with
      | none => (some 0, ⟨rest, true, rest = []⟩)
      | some value =>
          if value < Int32.minValue.toInt then (some Int32.minValue, ⟨rest, true, rest = []⟩)
          else if Int32.maxValue.toInt < value then (some Int32.maxValue, ⟨rest, true, rest = []⟩)
          else (some (Int32.ofInt value), ⟨rest, false, rest = []⟩)

end InStream

/-- `deserialize`: what the variables hold afterwards, and the stream. -/
def deserialize (params : InStream) : List (Option Int32) → List (Option Int32) × InStream
  | [] => ([], params)
  | h :: t =>
      let (h, params) := params.extract h
      let (t, params) := deserialize params t
      (h :: t, params)

/-! ## The copy -/

/-- A `std::string` made from the array. -/
def stringOf (val : Parameters) : Except MemoryFault (List UInt8) :=
  match cString 0 val.toList with
  | none => .error .unterminated
  | some str => .ok str

/-- `receive_request`, with the array of `step` and the message: what the array holds
afterwards, the sequence number, and whether the message is a ping.  The parameters of a ping
are not read. -/
def receiveRequest (val : Parameters) (sm : ServiceModule) :
    Except MemoryFault (Parameters × UInt32 × Bool) :=
  if sm.heartbeat then .ok (val, sm.seqId, true)
  else do
    -- only a ping comes without parameters
    let val := sm.parameters.getD val
    -- the string is only logged, but it is made here
    let _ ← stringOf val
    .ok (val, sm.seqId, false)

/-- `create_thread`: the parameters the new thread works with. -/
def createThread (val : Parameters) : Except MemoryFault (List UInt8) := stringOf val

/-- `task`: the value the body of the service computes; `none` if nothing was read into
`par1`. -/
def task (service : Int32 → Int32) (parameters : List UInt8) : Option Int32 :=
  match (deserialize (.ofText parameters) [none]).1 with
  | [] => none
  | par1 :: _ => par1.map service

end ReliableService
