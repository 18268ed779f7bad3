import ReliableService.Arguments.Frames
import ReliableService.Registration.DealerIndex

/-!
# Arguments arrive

What a client serializes is what a copy deserializes.  The string holds no terminator, so
the field gives back the string and nothing of what stood there before; every number in it is
followed by a separator, so one is read at a time (`extract_field`), and deserializing any
number of variables gives that many arguments (`deserialize_fields`).  The broker forwards the
field as it is, to every copy of the service that counts as reliable (`arguments_arrive`).
-/

namespace ReliableService

variable {args : List Int32} {x : Int32} {gap rest : List UInt8}

/-! ## Reading the string -/

theorem not_isSpace_of_isDigit {c : UInt8} (h : Decimal.isDigit c = true) :
    ¬ isSpace c = true := by
  rw [Decimal.isDigit, Bool.and_eq_true, decide_eq_true_eq, decide_eq_true_eq] at h
  rw [isSpace, Bool.or_eq_true, Bool.and_eq_true, decide_eq_true_eq, decide_eq_true_eq,
    decide_eq_true_eq]
  rintro (rfl | hcontrol)
  · exact absurd h (by decide)
  · omega

/-- The white space before a number is skipped, and nothing of the number. -/
theorem dropWhile_isSpace (hgap : ∀ c ∈ gap, isSpace c = true) (x : Int32)
    (rest : List UInt8) :
    (gap ++ (stdToString x ++ rest)).dropWhile isSpace = stdToString x ++ rest := by
  rw [List.dropWhile_append_of_pos hgap]
  obtain ⟨c, text, hcons⟩ := List.exists_cons_of_ne_nil (Decimal.printInt_ne_nil x.toInt)
  have hfirst : ¬ isSpace c = true := by
    have hmem : c ∈ Decimal.printInt x.toInt := hcons ▸ List.mem_cons_self
    rcases Decimal.of_mem_printInt hmem with rfl | hdigit
    · decide
    · exact not_isSpace_of_isDigit hdigit
  rw [stdToString, hcons, List.cons_append, List.dropWhile_cons, if_neg hfirst]

/-- **One argument.**  What is left starts with its separator. -/
theorem extract_field (hgap : ∀ c ∈ gap, isSpace c = true) (x : Int32) (rest : List UInt8)
    (h : Option Int32) :
    InStream.extract ⟨gap ++ (field x ++ rest), false, false⟩ h =
      (some x, ⟨space :: rest, false, false⟩) := by
  have hspace : ∀ c ∈ (space :: rest).head?, Decimal.isDigit c = false := by
    rintro c hc
    obtain rfl := Option.some.inj hc
    rfl
  have hmin : ¬ x.toInt < Int32.minValue.toInt := not_lt.mpr x.minValue_le_toInt
  have hmax : ¬ Int32.maxValue.toInt < x.toInt := not_lt.mpr x.toInt_le
  have hne : stdToString x ++ space :: rest ≠ [] := by simp
  unfold InStream.extract
  rw [if_neg (by simp), field, List.append_assoc, List.singleton_append]
  dsimp only
  rw [dropWhile_isSpace hgap, if_neg hne, stdToString,
    Decimal.scanInt_printInt_append x.toInt hspace]
  dsimp only
  rw [if_neg hmin, if_neg hmax, Int32.ofInt_toInt]
  simp

/-- **Any number of arguments** up to all of them. -/
theorem deserialize_fields (hgap : ∀ c ∈ gap, isSpace c = true) {args : List Int32}
    {targets : List (Option Int32)} (hfew : targets.length ≤ args.length) :
    (deserialize ⟨gap ++ args.flatMap field, false, false⟩ targets).1 =
      (args.take targets.length).map some := by
  induction targets generalizing gap args with
  | nil => rfl
  | cons h t ih =>
      cases args with
      | nil => simp at hfew
      | cons x args =>
          rw [deserialize, List.flatMap_cons, extract_field hgap]
          dsimp only
          have hgap' : ∀ c ∈ [space], isSpace c = true := List.forall_mem_singleton.mpr rfl
          have hrest := ih hgap' (Nat.le_of_succ_le_succ hfew)
          rw [List.singleton_append] at hrest
          rw [hrest]
          rfl

theorem deserialize_serialize {targets : List (Option Int32)}
    (hfew : targets.length ≤ args.length) :
    (deserialize (.ofText (serialize [] args)) targets).1 =
      (args.take targets.length).map some := by
  have hgap : ∀ c ∈ ([] : List UInt8), isSpace c = true := by simp
  rw [serialize_eq]
  exact deserialize_fields hgap hfew

/-- A copy hands the first argument to the body of its service. -/
theorem task_serialize (service : Int32 → Int32) (x : Int32) (args : List Int32) :
    task service (serialize [] (x :: args)) = some (service x) := by
  have hfew : [(none : Option Int32)].length ≤ (x :: args).length := Nat.le_add_left 1 args.length
  rw [task, deserialize_serialize hfew]
  rfl

/-! ## The way through the broker -/

section

variable {nmr : UInt8} {b : Broker nmr} {connected : ClientId → Bool} {c : ClientId}
  {request : RequestModule} {now later : Timespec}

/-- The broker forwards the field as it is, in a message that is no ping. -/
theorem parameters_of_getRequest {index : ℕ} {envelope : ClientId} {sm : ServiceModule}
    (hsent : .dealer index envelope sm ∈ (b.getRequest connected c request now later).sent) :
    sm.heartbeat = false ∧ sm.parameters = some request.parameters := by
  cases hrecord : b.db.servicesDb request.service with
  | none =>
      rw [Broker.getRequest, ServiceDatabase.findRegistration, hrecord] at hsent
      dsimp only [Option.map_none] at hsent
      unfold Broker.sendRouter at hsent
      split at hsent
      · simp at hsent
      · simp at hsent
  | some record =>
      rw [Broker.getRequest_of_registered hrecord] at hsent
      obtain ⟨-, -, rfl⟩ := Output.dealer.inj (Broker.mem_getRequest_sent hrecord hsent)
      exact ⟨rfl, rfl⟩

end

/-- What a copy makes of the message, whatever its array held before. -/
theorem createThread_of_receiveRequest {text : List UInt8} {scratch parameters : Parameters}
    (htext : 0 ∉ text) (hcopied : strcpy 0 scratch text = some parameters) {sm : ServiceModule}
    (hrequest : sm.heartbeat = false) (hparameters : sm.parameters = some parameters)
    (val : Parameters) :
    receiveRequest val sm = .ok (parameters, sm.seqId, false) ∧
      createThread parameters = .ok text := by
  have hstring : stringOf parameters = .ok text := by
    rw [stringOf, cString_of_strcpy htext hcopied]
  refine ⟨?_, hstring⟩
  rw [receiveRequest, hrequest, if_neg Bool.false_ne_true, hparameters, Option.getD_some]
  dsimp only
  rw [hstring]
  rfl

/-- A copy that takes the message for a request reads these arguments, or as many of them as it
has variables. -/
def ServiceModule.Reads (sm : ServiceModule) (args : List Int32) : Prop :=
  ∀ val, ∃ val' parameters, receiveRequest val sm = .ok (val', sm.seqId, false) ∧
    createThread val' = .ok parameters ∧
    ∀ targets : List (Option Int32), targets.length ≤ args.length →
      (deserialize (.ofText parameters) targets).1 = (args.take targets.length).map some

theorem reads_of_strcpy {scratch parameters : Parameters}
    (hcopied : strcpy 0 scratch (serialize [] args) = some parameters) {sm : ServiceModule}
    (hrequest : sm.heartbeat = false) (hparameters : sm.parameters = some parameters) :
    sm.Reads args := by
  intro val
  obtain ⟨hreceived, hthread⟩ := createThread_of_receiveRequest (nul_notMem_serialize args) hcopied
    hrequest hparameters val
  exact ⟨parameters, _, hreceived, hthread, fun targets hfew => deserialize_serialize hfew⟩

/-- **The arguments arrive.**  A request whose serialized arguments leave room for the terminator
is sent.  A broker that has the service and its socket forwards it to every copy that counts as
reliable, and whatever a broker forwards it to reads the arguments it was made with. -/
theorem arguments_arrive (service : ServiceType) (args : List Int32)
    (hfits : (serialize [] args).length ≤ paramSize - 1) (scratch : Parameters)
    (response : ResponseModule) (result : Option Int32) :
    ∃ request, (requestService service args scratch response result).sent = [request] ∧
      request.service = service ∧
      ∀ (nmr : UInt8) (b : Broker nmr) connected c now later,
        (∀ record, b.db.servicesDb service = some record →
          record.dealerSktIndex.toNat < b.dealer.length →
            ∃ sm, (b.getRequest connected c request now later).sent =
              List.replicate record.numCopiesReliable.toNat
                (.dealer record.dealerSktIndex.toNat c sm) ∧ sm.Reads args) ∧
        ∀ index envelope sm,
          .dealer index envelope sm ∈ (b.getRequest connected c request now later).sent →
            sm.Reads args := by
  have hshort : (serialize [] args).length < paramSize := by
    rw [paramSize] at hfits ⊢
    omega
  obtain ⟨parameters, hcopied, hsent, -⟩ := requestService_of_short hshort
  refine ⟨⟨service, parameters⟩, hsent, rfl, ?_⟩
  intro nmr b connected c now later
  constructor
  · intro record hrecord hrange
    refine ⟨Broker.forward record ⟨service, parameters⟩, ?_, reads_of_strcpy hcopied rfl rfl⟩
    rw [Broker.getRequest_of_registered hrecord]
    exact Broker.getRequest_sent_of_lt hrecord hrange c now later
  · intro index envelope sm hforwarded
    obtain ⟨hrequest, hparameters⟩ := parameters_of_getRequest hforwarded
    exact reads_of_strcpy hcopied hrequest hparameters

/-- The negative limit and two more, into a field full of digits, and on to two copies. -/
theorem arguments_arrive_limit :
    ∃ (request : RequestModule) (b : Broker 2) (sm : ServiceModule),
      (requestService 0 [Int32.minValue, 7, -10] (Vector.replicate paramSize 57)
        ⟨.serviceAvailable, some 8⟩ none).sent = [request] ∧
      ((Broker.init 5559 5555 : Broker 2).deploy (Broker.registrationsOf [0, 0])).result = .ok b ∧
      (b.getRequest Broker.everyone 9 request ⟨0, 0⟩ ⟨0, 0⟩).sent =
        [.dealer 0 9 sm, .dealer 0 9 sm] ∧
      ∀ val, ∃ val' parameters, receiveRequest val sm = .ok (val', sm.seqId, false) ∧
        createThread val' = .ok parameters ∧
        (deserialize (.ofText parameters) [none]).1 = [some Int32.minValue] ∧
        (deserialize (.ofText parameters) [some 1, none, some 3]).1 =
          [some Int32.minValue, some 7, some (-10)] := by
  have hbroker : ∃ b, ((Broker.init 5559 5555 : Broker 2).deploy
      (Broker.registrationsOf [0, 0])).result = .ok b ∧ b.dealer.length = 1 ∧
      ∃ record, b.db.servicesDb 0 = some record ∧ record.dealerSktIndex = 0 ∧
        record.numCopiesReliable = 2 := ⟨_, rfl, rfl, _, rfl, rfl, rfl⟩
  obtain ⟨b, hb, hdealer, record, hrecord, hindex, hcopies⟩ := hbroker
  obtain ⟨request, hsent, -, hforward⟩ := arguments_arrive 0 [Int32.minValue, 7, -10]
    (by rw [length_serialize]; decide) (Vector.replicate paramSize 57)
    ⟨.serviceAvailable, some 8⟩ none
  obtain ⟨sm, hforwarded, hreads⟩ := (hforward 2 b Broker.everyone 9 ⟨0, 0⟩ ⟨0, 0⟩).1 record hrecord
    (by rw [hindex, hdealer]; decide)
  rw [hindex, hcopies] at hforwarded
  refine ⟨request, b, sm, hsent, hb, hforwarded, fun val => ?_⟩
  obtain ⟨val', parameters, hreceived, hthread, hvalues⟩ := hreads val
  exact ⟨val', parameters, hreceived, hthread, hvalues [none] (by decide),
    hvalues [some 1, none, some 3] (by decide)⟩

end ReliableService
