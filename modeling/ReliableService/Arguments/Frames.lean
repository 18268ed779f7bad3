import Mathlib.Algebra.Group.Action.Defs
import Mathlib.Algebra.Order.BigOperators.Group.List
import ReliableService.Model.Parameters

/-!
# What fits into a request

The field `parameters` has room for `PARAM_SIZE` bytes, and `request_service` takes any number
of arguments.  `serialize` writes each of them and a separator (`serialize_eq`), so that the
length of the string is a sum over the arguments (`length_serialize`).  Nothing compares it with
the size of the field before `strcpy`: fifty zeros are one byte too much.
-/

namespace ReliableService

variable {args : List Int32} {service : ServiceType} {scratch : Parameters}
  {response : ResponseModule} {result : Option Int32}

/-! ## The serialized string -/

/-- One argument in the string. -/
def field (x : Int32) : List UInt8 := stdToString x ++ [space]

/-- `serialize` appends one argument after the other. -/
theorem serialize_eq (str : List UInt8) (args : List Int32) :
    serialize str args = str ++ args.flatMap field := by
  induction args generalizing str with
  | nil => exact (List.append_nil str).symm
  | cons h t ih => rw [serialize, ih, List.flatMap_cons, List.append_assoc, field]

/-- How many characters an argument takes, with its separator. -/
def argWidth (x : Int32) : ℕ := Decimal.width x.toInt + 1

theorem length_serialize (args : List Int32) :
    (serialize [] args).length = (args.map argWidth).sum := by
  rw [serialize_eq, List.nil_append, List.length_flatMap]
  congr 1
  refine List.map_congr_left fun x _ => ?_
  rw [field, List.length_append, List.length_singleton, stdToString, Decimal.length_printInt,
    argWidth]

/-- The characters of an argument. -/
theorem of_mem_field {c : UInt8} {x : Int32} (h : c ∈ field x) :
    c = Decimal.minus ∨ Decimal.isDigit c = true ∨ c = space := by
  rcases List.mem_append.mp h with hnumber | hspace
  · rcases Decimal.of_mem_printInt hnumber with hminus | hdigit
    · exact .inl hminus
    · exact .inr (.inl hdigit)
  · exact .inr (.inr (List.mem_singleton.mp hspace))

/-- No argument ends the string early. -/
theorem nul_notMem_serialize (args : List Int32) : 0 ∉ serialize [] args := by
  rw [serialize_eq, List.nil_append, List.mem_flatMap]
  rintro ⟨x, -, hnul⟩
  rcases of_mem_field hnul with hminus | hdigit | hspace
  · exact absurd hminus (by decide)
  · exact absurd hdigit (by decide)
  · exact absurd hspace (by decide)

/-! ## The copy into the field -/

/-- A request that does not fit is written past the end of the field. -/
theorem requestService_of_long (hlong : paramSize ≤ (serialize [] args).length) :
    requestService service args scratch response result = Outcome.fail .overflow := by
  unfold requestService
  rw [(strcpy_eq_none (nul_notMem_serialize args) scratch).mpr hlong]

/-- A request that fits is sent. -/
theorem requestService_of_short (hshort : (serialize [] args).length < paramSize) :
    ∃ parameters, strcpy 0 scratch (serialize [] args) = some parameters ∧
      (requestService service args scratch response result).sent = [⟨service, parameters⟩] ∧
      ∃ answer, (requestService service args scratch response result).result = .ok answer := by
  have hroom : strcpy 0 scratch (serialize [] args) ≠ none := by
    rw [ne_eq, strcpy_eq_none (nul_notMem_serialize args) scratch]
    exact not_le.mpr hshort
  obtain ⟨parameters, hparameters⟩ := Option.ne_none_iff_exists'.mp hroom
  refine ⟨parameters, hparameters, ?_⟩
  unfold requestService
  rw [hparameters]
  cases hstatus : response.serviceStatus <;> exact ⟨rfl, _, rfl⟩

/-- A request with these arguments stays in its frame, whatever the memory holds and whatever
the broker answers. -/
def StaysInFrame (service : ServiceType) (args : List Int32) : Prop :=
  ∀ scratch response result,
    (requestService service args scratch response result).result ≠ .error .overflow

theorem staysInFrame_of_short (hshort : (serialize [] args).length < paramSize) :
    StaysInFrame service args := by
  intro scratch response result hoverflow
  obtain ⟨-, -, -, answer, hanswer⟩ := requestService_of_short hshort
  rw [hanswer] at hoverflow
  cases hoverflow

/-- **A request stays in its frame** exactly if the widths of its arguments add up to less than
`PARAM_SIZE`. -/
theorem staysInFrame_iff (service : ServiceType) (args : List Int32) :
    StaysInFrame service args ↔ (args.map argWidth).sum < paramSize := by
  rw [← length_serialize]
  refine ⟨fun hstays => ?_, staysInFrame_of_short⟩
  by_contra hlong
  refine hstays (Vector.replicate paramSize 0) ⟨.serviceAvailable, none⟩ none ?_
  rw [requestService_of_long (not_lt.mp hlong)]
  rfl

/-- An `int32_t` takes eleven characters at most. -/
theorem argWidth_le (x : Int32) : argWidth x ≤ 12 := by
  have hlog : Nat.log 10 x.toInt.natAbs < 10 := by
    refine Nat.log_lt_of_lt_pow' (by decide) ?_
    have hmin := x.le_toInt
    have hmax := x.toInt_lt
    omega
  unfold argWidth Decimal.width
  split <;> omega

/-- Up to eight arguments always fit. -/
theorem staysInFrame_of_length_le (service : ServiceType) (hfew : args.length ≤ 8) :
    StaysInFrame service args := by
  refine staysInFrame_of_short ?_
  have hsum : (args.map argWidth).sum ≤ args.length * 12 := by
    have hall : ∀ width ∈ args.map argWidth, width ≤ 12 := by
      intro width hwidth
      obtain ⟨x, -, rfl⟩ := List.mem_map.mp hwidth
      exact argWidth_le x
    have := List.sum_le_card_nsmul _ _ hall
    rwa [List.length_map, smul_eq_mul] at this
  rw [length_serialize, paramSize]
  omega

/-- **Fifty zeros** and their separators take the whole field, and the terminator is written
behind it. -/
theorem fifty_zeros_overflow :
    ¬ ∀ (service : ServiceType) (args : List Int32), StaysInFrame service args := by
  intro h
  refine h 0 (List.replicate 50 0) (Vector.replicate paramSize 0) ⟨.serviceAvailable, none⟩ none ?_
  rw [requestService_of_long]
  · rfl
  · rw [length_serialize, List.map_replicate, List.sum_replicate]
    decide

end ReliableService
