import ReliableService.Model.Wire

/-!
# Every message arrives

Each structure is written by one host and read by another.  The fields are written one after the
other, so a field is read back through the later writes, which lie before it or behind it, down to
its own; and a number arrives because it is swapped on both sides (`ntohl_loadLong`).  Two things
are left to the memory of the sender: a result that was never computed, and the parameters of a
ping.
-/

namespace ReliableService

variable (sender receiver : ByteOrder)

/-! ## Numbers and truth values -/

theorem length_storeLong (n : UInt32) : (storeLong sender n).length = 4 :=
  ByteOrder.length_store sender

theorem length_storeShort (n : UInt16) : (storeShort sender n).length = 2 :=
  ByteOrder.length_store sender

theorem ntohl_loadLong (n : UInt32) :
    ntohl receiver (loadLong receiver (storeLong sender (htonl sender n))) = n := by
  have hn : n.toNat < 256 ^ 4 := n.toNat_lt
  have hswapped : sender.swap 4 n.toNat < 2 ^ 32 := sender.swap_lt hn
  have hread : receiver.load (sender.store 4 (sender.swap 4 n.toNat)) < 2 ^ 32 := by
    have hlt := receiver.load_lt (sender.store 4 (sender.swap 4 n.toNat))
    rwa [ByteOrder.length_store] at hlt
  rw [ntohl, loadLong, storeLong, htonl, UInt32.toNat_ofNat_of_lt' hswapped,
    UInt32.toNat_ofNat_of_lt' hread, ByteOrder.swap_load_store_swap sender receiver hn,
    UInt32.ofNat_toNat]

theorem ntohs_loadShort (n : UInt16) :
    ntohs receiver (loadShort receiver (storeShort sender (htons sender n))) = n := by
  have hn : n.toNat < 256 ^ 2 := n.toNat_lt
  have hswapped : sender.swap 2 n.toNat < 2 ^ 16 := sender.swap_lt hn
  have hread : receiver.load (sender.store 2 (sender.swap 2 n.toNat)) < 2 ^ 16 := by
    have hlt := receiver.load_lt (sender.store 2 (sender.swap 2 n.toNat))
    rwa [ByteOrder.length_store] at hlt
  rw [ntohs, loadShort, storeShort, htons, UInt16.toNat_ofNat_of_lt' hswapped,
    UInt16.toNat_ofNat_of_lt' hread, ByteOrder.swap_load_store_swap sender receiver hn,
    UInt16.ofNat_toNat]

/-- A host reads what it has stored. -/
theorem loadLong_storeLong (host : ByteOrder) (n : UInt32) :
    loadLong host (storeLong host n) = n := by
  have hn : n.toNat < 256 ^ 4 := n.toNat_lt
  rw [loadLong, storeLong, ByteOrder.load_store, Nat.mod_eq_of_lt hn, UInt32.ofNat_toNat]

theorem storeLong_loadLong (host : ByteOrder) {bytes : List UInt8} (hbytes : bytes.length = 4) :
    storeLong host (loadLong host bytes) = bytes := by
  have hlt : host.load bytes < 2 ^ 32 := by
    have hlt := host.load_lt bytes
    rwa [hbytes] at hlt
  rw [storeLong, loadLong, UInt32.toNat_ofNat_of_lt' hlt, ← hbytes,
    ByteOrder.store_load]

theorem loadBool_storeBool (b : Bool) : loadBool (storeBool b) = b := by
  cases b <;> rfl

theorem length_storeBool (b : Bool) : (storeBool b).length = 1 := rfl

theorem loadParameters_toList (parameters : Parameters) :
    loadParameters parameters.toList = parameters := by
  apply Vector.ext
  intro i hi
  rw [loadParameters, Vector.getElem_ofFn, List.getD_eq_getElem _ _ (by simpa using hi),
    Vector.getElem_toList]

/-! ## The structures -/

theorem load_storeRequestModule (scratch : Vector UInt8 requestModuleSize) (rm : RequestModule) :
    loadRequestModule receiver (storeRequestModule sender scratch rm) = some rm := by
  have hsize : requestModuleSize = 104 := rfl
  have hparamSize : paramSize = 100 := rfl
  have hscratch : scratch.toList.length = requestModuleSize := Vector.length_toList ..
  have hparameters : rm.parameters.toList.length = paramSize := Vector.length_toList ..
  have hlong := length_storeLong sender (htonl sender rm.service)
  unfold storeRequestModule loadRequestModule
  dsimp only
  rw [if_neg (by simp only [length_poke]; omega),
    peek_poke_self (by simp only [length_poke]; omega) hlong,
    peek_poke_behind (by simp only [length_poke]; omega) (by omega),
    peek_poke_self (by omega) hparameters, ntohl_loadLong, loadParameters_toList]

/-- The response as it arrives; a result nobody computed is some number. -/
structure ResponseModule.Arrives (response arrived : ResponseModule) : Prop where
  serviceStatus : arrived.serviceStatus = response.serviceStatus
  result : ∀ result ∈ response.result, arrived.result = some result

theorem load_storeResponseModule (scratch : Vector UInt8 responseModuleSize)
    (response : ResponseModule) :
    ∃ arrived, loadResponseModule receiver (storeResponseModule sender scratch response) =
      some arrived ∧ response.Arrives arrived := by
  have hsize : responseModuleSize = 8 := rfl
  have hscratch : scratch.toList.length = responseModuleSize := Vector.length_toList ..
  have hstatus := length_storeLong sender (htonl sender response.serviceStatus.number)
  have hnumber : ServiceStatus.ofNumber response.serviceStatus.number = response.serviceStatus := by
    cases response.serviceStatus <;> rfl
  obtain ⟨status, result⟩ := response
  unfold storeResponseModule loadResponseModule
  cases result with
  | none =>
      dsimp only at *
      rw [if_neg (by simp only [length_poke]; omega)]
      refine ⟨_, rfl, ?_, nofun⟩
      dsimp only
      rw [peek_poke_self (by omega) hstatus, ntohl_loadLong, hnumber]
  | some computed =>
      have hresult := length_storeLong sender (htonl sender computed.toUInt32)
      dsimp only at *
      rw [if_neg (by simp only [length_poke]; omega)]
      refine ⟨_, rfl, ?_, ?_⟩
      · dsimp only
        rw [peek_poke_before (by simp only [length_poke]; omega) (by omega),
          peek_poke_self (by omega) hstatus, ntohl_loadLong, hnumber]
      · rintro other ⟨⟩
        dsimp only
        rw [peek_poke_self (by simp only [length_poke]; omega) hresult, ntohl_loadLong,
          Int32.toInt32_toUInt32]

/-- The message of the broker as it arrives; a ping has some parameters. -/
structure ServiceModule.Arrives (sm arrived : ServiceModule) : Prop where
  heartbeat : arrived.heartbeat = sm.heartbeat
  seqId : arrived.seqId = sm.seqId
  parameters : ∀ parameters ∈ sm.parameters, arrived.parameters = some parameters

theorem load_storeServiceModule (scratch : Vector UInt8 serviceModuleSize) (sm : ServiceModule) :
    ∃ arrived, loadServiceModule receiver (storeServiceModule sender scratch sm) = some arrived ∧
      sm.Arrives arrived := by
  have hsize : serviceModuleSize = 108 := rfl
  have hparamSize : paramSize = 100 := rfl
  have hscratch : scratch.toList.length = serviceModuleSize := Vector.length_toList ..
  have hheartbeat := length_storeBool sm.heartbeat
  have hseqId := length_storeLong sender (htonl sender sm.seqId)
  obtain ⟨heartbeat, seqId, parameters⟩ := sm
  unfold storeServiceModule loadServiceModule
  cases parameters with
  | none =>
      dsimp only at *
      rw [if_neg (by simp only [length_poke]; omega)]
      refine ⟨_, rfl, ?_, ?_, nofun⟩
      · dsimp only
        rw [peek_poke_before (by simp only [length_poke]; omega) (by omega),
          peek_poke_self (by omega) hheartbeat, loadBool_storeBool]
      · dsimp only
        rw [peek_poke_self (by simp only [length_poke]; omega) hseqId, ntohl_loadLong]
  | some given =>
      have hgiven : given.toList.length = paramSize := Vector.length_toList ..
      dsimp only at *
      rw [if_neg (by simp only [length_poke]; omega)]
      refine ⟨_, rfl, ?_, ?_, ?_⟩
      · dsimp only
        rw [peek_poke_before (by simp only [length_poke]; omega) (by omega),
          peek_poke_before (by simp only [length_poke]; omega) (by omega),
          peek_poke_self (by omega) hheartbeat, loadBool_storeBool]
      · dsimp only
        rw [peek_poke_before (by simp only [length_poke]; omega) (by omega),
          peek_poke_self (by simp only [length_poke]; omega) hseqId, ntohl_loadLong]
      · rintro other ⟨⟩
        dsimp only
        rw [peek_poke_self (by simp only [length_poke]; omega) hgiven, loadParameters_toList]

/-- The reply as it arrives: what its kind of reply has a value for. -/
structure ServerReply.Tells (id : UInt8) (service : ServiceType) (valElab : Int32)
    (reaction : Reaction) (arrived : ServerReply) : Prop where
  id_eq : arrived.id = id
  service_eq : arrived.service = service
  heartbeat : arrived.heartbeat = true ↔ reaction = .pong
  duplicated : reaction ≠ .pong → (arrived.duplicated = true ↔ reaction = .duplicated)
  result : reaction = .answer → arrived.result = valElab

/-- A reply with the two fields that every reply has. -/
structure Addressed (host : ByteOrder) (id : UInt8) (service : ServiceType) (memory : Frame) :
    Prop where
  size : memory.length = serverReplySize
  id_eq : peek memory 12 1 = [id]
  service_eq : peek memory 8 4 = storeLong host (htonl host service)

theorem addressed_of_scratch (scratch : Vector UInt8 serverReplySize) (id : UInt8)
    (service : ServiceType) : Addressed sender id service
      (poke (poke scratch.toList 12 [id]) 8 (storeLong sender (htonl sender service))) := by
  have hsize : serverReplySize = 16 := rfl
  have hscratch : scratch.toList.length = serverReplySize := Vector.length_toList ..
  have hid : [id].length = 1 := rfl
  have hservice := length_storeLong sender (htonl sender service)
  refine ⟨by simp only [length_poke]; omega, ?_, ?_⟩
  · rw [peek_poke_behind (by simp only [length_poke]; omega) (by omega),
      peek_poke_self (by omega) hid]
  · exact peek_poke_self (by simp only [length_poke]; omega) hservice

/-- The other fields stand before these two. -/
theorem Addressed.poke {host : ByteOrder} {id : UInt8} {service : ServiceType} {memory : Frame}
    (h : Addressed host id service memory) {offset : ℕ} {bytes : Frame}
    (hbefore : offset + bytes.length ≤ 8) :
    Addressed host id service (poke memory offset bytes) := by
  have hsize := h.size.trans (show serverReplySize = 16 from rfl)
  refine ⟨?_, ?_, ?_⟩
  · rw [length_poke_of_fits (by omega), h.size]
  · rw [peek_poke_behind (by omega) (by omega), h.id_eq]
  · rw [peek_poke_behind (by omega) hbefore, h.service_eq]

theorem Addressed.load {id : UInt8} {service : ServiceType} {memory : Frame}
    (h : Addressed sender id service memory) : loadServerReply receiver memory =
      some ⟨loadBool (peek memory 0 1), loadBool (peek memory 1 1),
        (ntohl receiver (loadLong receiver (peek memory 4 4))).toInt32, service, id⟩ := by
  rw [loadServerReply, if_neg (by rw [h.size]; exact lt_irrefl _), h.id_eq, h.service_eq,
    ntohl_loadLong, List.headD_cons]

theorem loadBool_flags {memory : Frame} (hsize : 2 ≤ memory.length) (heartbeat duplicated : Bool) :
    loadBool (peek (poke (poke memory 0 (storeBool heartbeat)) 1 (storeBool duplicated)) 0 1) =
        heartbeat ∧
      loadBool (peek (poke (poke memory 0 (storeBool heartbeat)) 1 (storeBool duplicated)) 1 1) =
        duplicated := by
  have hflag := length_storeBool
  have hpoked : (poke memory 0 (storeBool heartbeat)).length = memory.length :=
    length_poke_of_fits (by rw [hflag]; omega)
  constructor
  · rw [peek_poke_before (by rw [hpoked, hflag]; omega) (by omega),
      peek_poke_self (by rw [hflag]; omega) (hflag _), loadBool_storeBool]
  · rw [peek_poke_self (by rw [hpoked, hflag]; omega) (hflag _), loadBool_storeBool]

theorem load_storeServerReply (scratch : Vector UInt8 serverReplySize) (id : UInt8)
    (service : ServiceType) (valElab : Int32) (reaction : Reaction) :
    ∃ arrived, loadServerReply receiver
        (storeServerReply sender scratch id service valElab reaction) = some arrived ∧
      ServerReply.Tells id service valElab reaction arrived := by
  have haddressed := addressed_of_scratch sender scratch id service
  have hsize : serverReplySize = 16 := rfl
  have hflag := length_storeBool
  unfold storeServerReply
  dsimp only
  generalize poke (poke scratch.toList 12 [id]) 8 (storeLong sender (htonl sender service)) =
    memory at haddressed
  have hmemory := haddressed.size
  cases reaction with
  | pong =>
      have hsent : Addressed sender id service (poke memory 0 (storeBool true)) :=
        haddressed.poke (by rw [hflag]; omega)
      have hheartbeat : loadBool (peek (poke memory 0 (storeBool true)) 0 1) = true := by
        rw [peek_poke_self (by rw [hflag]; omega) (hflag _), loadBool_storeBool]
      refine ⟨_, hsent.load sender receiver, rfl, rfl, iff_of_true hheartbeat rfl,
        fun hpong => absurd rfl hpong, ?_⟩
      rintro ⟨⟩
  | duplicated =>
      have hsent : Addressed sender id service
          (poke (poke memory 0 (storeBool false)) 1 (storeBool true)) :=
        (haddressed.poke (by rw [hflag]; omega)).poke (by rw [hflag]; omega)
      obtain ⟨hheartbeat, hduplicated⟩ := loadBool_flags (by omega : 2 ≤ memory.length) false true
      refine ⟨_, hsent.load sender receiver, rfl, rfl, ?_, fun _ => iff_of_true hduplicated rfl, ?_⟩
      · exact iff_of_false (by simp [hheartbeat]) (by simp)
      · rintro ⟨⟩
  | answer =>
      have hresult := length_storeLong sender (htonl sender valElab.toUInt32)
      have hflagged : Addressed sender id service
          (poke (poke memory 0 (storeBool false)) 1 (storeBool false)) :=
        (haddressed.poke (by rw [hflag]; omega)).poke (by rw [hflag]; omega)
      have hsent : Addressed sender id service (poke (poke (poke memory 0 (storeBool false)) 1
          (storeBool false)) 4 (storeLong sender (htonl sender valElab.toUInt32))) :=
        hflagged.poke (by rw [hresult])
      obtain ⟨hheartbeat, hduplicated⟩ := loadBool_flags (by omega : 2 ≤ memory.length) false false
      refine ⟨_, hsent.load sender receiver, rfl, rfl, ?_, fun _ => ?_, fun _ => ?_⟩
      · dsimp only
        rw [peek_poke_before (by rw [hflagged.size]; omega) (by omega), hheartbeat]
        exact iff_of_false (by simp) (by simp)
      · dsimp only
        rw [peek_poke_before (by rw [hflagged.size]; omega) (by omega), hduplicated]
        exact iff_of_false (by simp) (by simp)
      · dsimp only
        rw [peek_poke_self (by rw [hflagged.size]; omega) hresult, ntohl_loadLong,
          Int32.toInt32_toUInt32]

theorem load_storeRegistrationModule (scratch : Vector UInt8 registrationModuleSize)
    (service : ServiceType) :
    loadRegistrationModule receiver (storeRegistrationModule sender scratch service) =
      some ⟨"pippo", service⟩ := by
  have hsize : registrationModuleSize = 36 := rfl
  have hmaximum : maxLengthSignature = 32 := rfl
  have hscratch : scratch.toList.length = registrationModuleSize := Vector.length_toList ..
  have hservice := length_storeLong sender (htonl sender service)
  have hsignature :
      (poke (List.replicate maxLengthSignature 0) 0 (signatureText ++ [0])).length = 32 := rfl
  unfold storeRegistrationModule loadRegistrationModule
  generalize scratch.toList = memory at *
  dsimp only
  rw [if_neg (by simp only [length_poke, hsignature]; omega),
    peek_poke_before (by simp only [length_poke, hsignature]; omega) (by omega),
    peek_poke_self (by rw [hsignature]; omega) (hsignature.trans hmaximum.symm),
    peek_poke_self (by simp only [length_poke, hsignature]; omega) hservice, ntohl_loadLong]
  rfl

theorem load_storePort (port : UInt16) :
    loadPort receiver (storePort sender port) = some port := by
  have hport := length_storeShort sender (htons sender port)
  unfold loadPort storePort
  rw [if_neg (by omega), peek, List.drop_zero, List.take_of_length_le hport.le, ntohs_loadShort]

/-! ## Identities -/

theorem readClientId_identityFrame (host : ByteOrder) (clientId : ClientId) :
    readClientId host (identityFrame host clientId) = clientId := by
  have hlong := length_storeLong host clientId
  rw [readClientId, identityFrame, peek, List.drop_one, List.tail_cons,
    List.take_of_length_le hlong.le, loadLong_storeLong]

/-- **The identity that is built again is the one that was taken apart.** -/
theorem identityFrame_readClientId (host : ByteOrder) {message : MultiMsg}
    (hframed : message.Framed) :
    identityFrame host (readClientId host message.idFrame) = message.idFrame := by
  obtain ⟨bytes, hbytes, hid⟩ := hframed
  rw [hid, readClientId, identityFrame, peek, List.drop_one, List.tail_cons,
    List.take_of_length_le hbytes.le, storeLong_loadLong host hbytes]

/-- The identity of a ping is the same number on every host. -/
theorem identityFrame_pingEnvelope (host : ByteOrder) :
    identityFrame host pingEnvelope = addressPing := by
  cases host <;> decide

/-! ## Messages of several frames -/

/-- The frames of a message, each with the flag that says whether more of them follow. -/
def flagged (msg : List Frame) : List (Frame × Bool) :=
  (msg.dropLast.map fun frame => (frame, true)) ++
    (msg.getLast?.toList.map fun frame => (frame, false))

theorem sendMultiMsg_of_fits {msg : List Frame} {fuel : ℕ} (hpos : 0 < msg.length)
    (hle : msg.length ≤ 256) (hfuel : msg.length ≤ fuel) :
    sendMultiMsg msg fuel = some (flagged msg) := by
  have hsize : msg.length - 1 < 256 := by omega
  have hvalue : ∀ k ≤ msg.length - 1, (UInt8.ofNat k).toNat = k := fun k hk =>
    UInt8.toNat_ofNat_of_lt' (Nat.lt_of_le_of_lt hk hsize)
  -- after `k` iterations the first `k` frames are out
  obtain ⟨⟨i, sent⟩, hloop, rfl, rfl⟩ : ∃ t, forUInt8 (msg.length - 1) (sendMore msg) fuel (0, []) =
      some t ∧ t.1 = UInt8.ofNat (msg.length - 1) ∧
      t.2 = (msg.take (msg.length - 1)).map fun frame => (frame, true) := by
    refine forUInt8_spec (P := fun k (t : UInt8 × List (Frame × Bool)) => t.1 = UInt8.ofNat k ∧
      t.2 = (msg.take k).map fun frame => (frame, true)) hsize (by omega) ?_ ⟨rfl, rfl⟩
    rintro k hk ⟨_, sent⟩ ⟨-, rfl⟩
    have hlt : k < msg.length := by omega
    refine ⟨_, by rw [sendMore, hvalue k hk.le, List.getElem?_eq_getElem hlt, Option.map_some],
      (UInt8.ofNat_add k 1).symm, ?_⟩
    rw [List.take_succ_eq_append_getElem hlt, List.map_append]
    rfl
  obtain ⟨last, hlast⟩ := Option.ne_none_iff_exists'.mp
    (mt List.getLast?_eq_none_iff.mp (List.ne_nil_of_length_pos hpos))
  unfold sendMultiMsg
  rw [if_neg hpos.ne']
  dsimp only
  rw [hloop]
  dsimp only [Option.bind_eq_bind, Option.bind_some]
  rw [hvalue _ le_rfl, ← List.getLast?_eq_getElem?, flagged, List.dropLast_eq_take, hlast]
  rfl

theorem sendMultiMsg_of_not_fits {msg : List Frame} (h : msg.length = 0 ∨ 256 < msg.length)
    (fuel : ℕ) : sendMultiMsg msg fuel = none := by
  have hsize : 256 ≤ if msg.length = 0 then 2 ^ 64 - 1 else msg.length - 1 := by
    split
    · decide
    · omega
  unfold sendMultiMsg
  dsimp only
  rw [forUInt8_endless hsize]
  rfl

theorem sendMultiMsg_of_le {msg : List Frame} {sent : List (Frame × Bool)} {fuel fuel' : ℕ}
    (h : sendMultiMsg msg fuel = some sent) (hle : fuel ≤ fuel') :
    sendMultiMsg msg fuel' = some sent := by
  obtain ⟨state, hloop, hlast⟩ := Option.bind_eq_some_iff.mp h
  exact Option.bind_eq_some_iff.mpr ⟨state, forLoop_of_le hloop hle, hlast⟩

/-- **A message goes out frame by frame if it has at most 256 of them**; for a longer one, and for
one without frames, no number of iterations is enough. -/
theorem sendMultiMsg_eq_some_iff {msg : List Frame} {sent : List (Frame × Bool)} :
    (∃ fuel, sendMultiMsg msg fuel = some sent) ↔
      0 < msg.length ∧ msg.length ≤ 256 ∧ sent = flagged msg := by
  constructor
  · rintro ⟨fuel, hsent⟩
    by_cases hfits : 0 < msg.length ∧ msg.length ≤ 256
    · obtain ⟨hpos, hle⟩ := hfits
      refine ⟨hpos, hle, ?_⟩
      -- with more iterations it is the same
      have hlonger := sendMultiMsg_of_le hsent (Nat.le_max_left fuel msg.length)
      rw [sendMultiMsg_of_fits hpos hle (Nat.le_max_right fuel msg.length)] at hlonger
      exact (Option.some.inj hlonger).symm
    · rw [sendMultiMsg_of_not_fits (by omega)] at hsent
      cases hsent
  · rintro ⟨hpos, hle, rfl⟩
    exact ⟨_, sendMultiMsg_of_fits hpos hle le_rfl⟩

/-! ## All of them -/

/-- A message of the system, as its sender has it. -/
inductive Message
  | request (rm : RequestModule)
  | response (response : ResponseModule)
  | service (sm : ServiceModule)
  | reply (id : UInt8) (service : ServiceType) (valElab : Int32) (reaction : Reaction)
  | registration (service : ServiceType)
  | port (port : UInt16)

/-- The frame its sender makes of it, out of memory of any size with anything in it. -/
def Message.store (sender : ByteOrder) (memory : ∀ n, Vector UInt8 n) : Message → Frame
  | .request rm => storeRequestModule sender (memory _) rm
  | .response module => storeResponseModule sender (memory _) module
  | .service sm => storeServiceModule sender (memory _) sm
  | .reply id serviceType valElab reaction =>
      storeServerReply sender (memory _) id serviceType valElab reaction
  | .registration serviceType => storeRegistrationModule sender (memory _) serviceType
  | .port dealerPort => storePort sender dealerPort

/-- The receiver finds the message in the frame. -/
def Message.ArrivesIn (receiver : ByteOrder) (data : Frame) : Message → Prop
  | .request rm => loadRequestModule receiver data = some rm
  | .response module =>
      ∃ arrived, loadResponseModule receiver data = some arrived ∧ module.Arrives arrived
  | .service sm => ∃ arrived, loadServiceModule receiver data = some arrived ∧ sm.Arrives arrived
  | .reply id serviceType valElab reaction =>
      ∃ arrived, loadServerReply receiver data = some arrived ∧
        ServerReply.Tells id serviceType valElab reaction arrived
  | .registration serviceType =>
      loadRegistrationModule receiver data = some ⟨"pippo", serviceType⟩
  | .port dealerPort => loadPort receiver data = some dealerPort

/-- **Every message arrives**, alone or as the last frame behind an envelope, whatever the byte
orders of the two hosts and whatever the memory of the sender held. -/
theorem message_arrives (memory : ∀ n, Vector UInt8 n) (idFrame emptyFrame : Frame)
    (message : Message) (fuel : ℕ) :
    message.ArrivesIn receiver (message.store sender memory) ∧
      sendMultiMsg [idFrame, emptyFrame, message.store sender memory] (fuel + 3) =
        some [(idFrame, true), (emptyFrame, true), (message.store sender memory, false)] := by
  refine ⟨?_, sendMultiMsg_of_fits (by simp) (by simp) (Nat.le_add_left _ _)⟩
  cases message with
  | request rm => exact load_storeRequestModule sender receiver (memory _) rm
  | response response => exact load_storeResponseModule sender receiver (memory _) response
  | service sm => exact load_storeServiceModule sender receiver (memory _) sm
  | reply id service valElab reaction =>
      exact load_storeServerReply sender receiver (memory _) id service valElab reaction
  | registration service => exact load_storeRegistrationModule sender receiver (memory _) service
  | port port => exact load_storePort sender receiver port

end ReliableService
