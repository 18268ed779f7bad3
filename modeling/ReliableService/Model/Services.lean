import ReliableService.Model.Parameters

/-!
# The services

`service.cpp`: the bodies of the services, and how a copy gets hold of one.  `get_service_body`
has a body for three of the four services.  The line for `SUM` is a comment, so that the pointer it
returns was never written, and any other number ends the copy.

Signed arithmetic that leaves `int32_t` is undefined, and so is a call through that pointer: both
are `none`.
-/

namespace ReliableService

/-- A result of `int32_t` arithmetic. -/
def int32 (v : ℤ) : Option Int32 :=
  if Int32.minValue.toInt ≤ v ∧ v ≤ Int32.maxValue.toInt then some (Int32.ofInt v) else none

theorem int32_eq_some_iff {v : ℤ} {x : Int32} : int32 v = some x ↔ x.toInt = v := by
  unfold int32
  constructor
  · intro h
    split at h
    · rename_i hrange
      rw [← Option.some.inj h]
      exact Int32.toInt_ofInt_of_le hrange.1 (Int.lt_of_le_of_lt hrange.2 (by decide))
    · cases h
  · rintro rfl
    rw [if_pos ⟨x.minValue_le_toInt, x.toInt_le⟩, Int32.ofInt_toInt]

/-- `service_body` -/
abbrev ServiceBody := Int32 → Option Int32

/-- `increment` -/
def increment : ServiceBody := fun x => int32 (x.toInt + 1)

/-- `decrement` -/
def decrement : ServiceBody := fun x => int32 (x.toInt - 1)

/-- `multiply2` -/
def multiply2 : ServiceBody := fun x => int32 (x.toInt * 2)

/-- `get_service_body`; `none` is the pointer that nothing was written to. -/
def getServiceBody (service : ServiceType) : Except Fault (Option ServiceBody) :=
  if service = 0 then .ok (some increment)
  else if service = 1 then .ok (some decrement)
  else if service = 2 then .ok (some multiply2)
  else if service = 3 then .ok none
  else .error .exitFailure

/-- What a copy of the service replies with to a request with these parameters, as far as the
source says.  `task` reads `par1` from the stream and hands it to the body. -/
def replyValue (service : ServiceType) (parameters : Parameters) : Option Int32 := do
  let body ← (getServiceBody service).toOption.join
  let text ← (createThread parameters).toOption
  let par1 ← task id text
  body par1

end ReliableService
