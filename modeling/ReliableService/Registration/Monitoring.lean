import ReliableService.Model.DeploymentUnit
import ReliableService.Registration.Answers

/-!
# Which copies the broker listens to

A registration is accepted if the service has room, whichever copy it comes from; a pong is
filed under the number of the copy that sends it, unchecked.  With more copies deployed than
the broker has slots, a copy with a number past the last slot can be one of the first to
register, and then its pong is written past the end of `new_pong`.

The copies of a service are all heard if and only if the ones with such a number come too late
(`pongsHeard_iff`).
-/

namespace ReliableService.Broker

open ServiceRecord

variable {nmr : UInt8} {b : Broker nmr} {service : ServiceType} {portRouter portReg : UInt16}
  {moments : List Identified}

/-- `check_pong` watches the slot: a pong clears it, and silence counts. -/
structure Watched (record : ServiceRecord nmr) (slot : Fin nmr.toNat) : Prop where
  pong : (record.registerPong slot).checkPong.lostOf slot = 0
  silence : record.pongOf slot = false → record.lostOf slot < liveness →
    record.checkPong.lostOf slot = record.lostOf slot + 1

/-- Each of these copies has a slot for itself, every pong of it is filed there, and
`check_pong` watches the slot. -/
def PongsHeard (b : Broker nmr) (service : ServiceType) (accepted : List UInt8) : Prop :=
  ∃ slot : { id // id ∈ accepted } → Fin nmr.toNat, Function.Injective slot ∧
    ∀ id connected dealerIndex (reply : ServerReply) c,
      reply.heartbeat = true → reply.service = service → reply.id = id.val →
        ∃ record, b.db.servicesDb service = some record ∧ Watched record (slot id) ∧
          b.getResponse connected dealerIndex reply c =
            pure { b with db := b.db.insert service (record.registerPong (slot id)) }

theorem watched (record : ServiceRecord nmr) (slot : Fin nmr.toNat) : Watched record slot where
  pong := by rw [lostOf_checkPong, pongOf_registerPong_self, if_pos rfl]
  silence := by
    intro hpong hlost
    rw [lostOf_checkPong, if_neg (by simp [hpong]), if_pos hlost]

/-! ## Whose registrations are accepted -/

theorem acceptedCopies_concat {before : List Identified} {t : Broker nmr}
    (hrun : (b.run (before.map Prod.fst)).result = .ok t) (m : Identified) :
    acceptedCopies service b (before ++ [m]) =
      acceptedCopies service b before ++
        if Registers service m.1 ∧ t.Accepts service then [m.2] else [] := by
  induction before generalizing b with
  | nil =>
      obtain rfl : b = t := Except.ok.inj hrun
      rw [List.nil_append, acceptedCopies, acceptedCopies, List.nil_append]
      cases (b.handle m.1.connected m.1.event).result with
      | error fault => exact List.append_nil _
      | ok b' => exact List.append_nil _
  | cons first before ih =>
      obtain ⟨u, hu, hrest⟩ := Outcome.bind_result_ok.mp hrun
      rw [List.cons_append, acceptedCopies, acceptedCopies, hu, List.append_assoc]
      exact congrArg (_ ++ ·) (ih hrest)

theorem registrants_concat (before : List Identified) (m : Identified) :
    registrants service (before ++ [m]) =
      registrants service before ++ if Registers service m.1 then [m.2] else [] := by
  unfold registrants
  rw [List.filter_append, List.map_append]
  by_cases h : Registers service m.1 <;> simp [h]

/-- The registrations of a service, counted with and without their senders. -/
theorem count_registrationHistory (service : ServiceType) (moments : List Identified) :
    (registrationHistory (moments.map Prod.fst)).count service =
      (registrants service moments).length := by
  induction moments using List.reverseRecOn with
  | nil => rfl
  | append_singleton before m ih =>
      rw [List.map_append, List.map_singleton, registrationHistory_concat, List.count_append, ih,
        registrants_concat, List.length_append, Nat.add_comm]
      congr 1
      obtain ⟨⟨connected, event⟩, id⟩ := m
      cases event with
      | registration rm now =>
          show [rm.service].count service = (if rm.service = service then [id] else []).length
          rw [List.count_singleton]
          by_cases hself : rm.service = service <;> simp [hself]
      | request c request now later => rfl
      | response index reply c => rfl
      | heartbeat i now later => rfl
      | sweep now => rfl

/-- The registration is accepted in the run. -/
def AcceptedAt (portRouter portReg : UInt16) (nmr : UInt8) (service : ServiceType)
    (moments : List Identified) (m : Identified) : Prop :=
  ∃ before, ∃ t : Broker nmr, before ++ [m] <+: moments ∧
    ((init portRouter portReg).run (before.map Prod.fst)).result = .ok t ∧
    Registers service m.1 ∧ t.Accepts service

theorem AcceptedAt.mem_registrants {m : Identified}
    (h : AcceptedAt portRouter portReg nmr service moments m) :
    m.2 ∈ registrants service moments := by
  obtain ⟨before, t, hpre, -, hregisters, -⟩ := h
  have hmem := hpre.subset (List.mem_append_right before (List.mem_singleton_self m))
  exact List.mem_map.mpr ⟨m, List.mem_filter.mpr ⟨hmem, by simpa using hregisters⟩, rfl⟩

theorem mem_acceptedCopies
    (hrun : ((init portRouter portReg : Broker nmr).run (moments.map Prod.fst)).result = .ok b)
    {id : UInt8} :
    id ∈ acceptedCopies service (init portRouter portReg : Broker nmr) moments ↔
      ∃ m, m.2 = id ∧ AcceptedAt portRouter portReg nmr service moments m := by
  induction moments using List.reverseRecOn generalizing b with
  | nil =>
      refine iff_of_false List.not_mem_nil ?_
      rintro ⟨m, -, before, t, hpre, -⟩
      simp at hpre
  | append_singleton before m ih =>
      rw [List.map_append, List.map_singleton] at hrun
      obtain ⟨t, ht, hb⟩ := Outcome.foldlM_concat_ok.mp hrun
      rw [acceptedCopies_concat ht, List.mem_append, ih ht]
      constructor
      · rintro (⟨m', hm', before', t', hpre, hrest⟩ | hlast)
        · exact ⟨m', hm', before', t', hpre.trans (List.prefix_append ..), hrest⟩
        · split at hlast
          · rename_i haccepted
            exact ⟨m, (List.mem_singleton.mp hlast).symm, before, t, List.prefix_rfl, ht,
              haccepted⟩
          · exact absurd hlast List.not_mem_nil
      · rintro ⟨m', hm', before', t', hpre, ht', haccepted⟩
        rcases List.prefix_concat_iff.mp hpre with heq | hearlier
        · obtain ⟨rfl, hlast⟩ := List.append_inj' heq rfl
          obtain rfl : m' = m := List.singleton_inj.mp hlast
          obtain rfl : t = t' := Except.ok.inj (ht.symm.trans ht')
          right
          rw [if_pos haccepted, hm']
          exact List.mem_singleton_self _
        · exact .inl ⟨m', hm', before', t', hearlier, ht', haccepted⟩

/-- Without a loss the first `nmr` registrations are accepted, and no other. -/
theorem acceptedCopies_of_lossless
    (hlossless : LosslessRun nmr portRouter portReg (moments.map Prod.fst))
    (hrun : ((init portRouter portReg : Broker nmr).run (moments.map Prod.fst)).result = .ok b) :
    acceptedCopies service (init portRouter portReg : Broker nmr) moments =
      (registrants service moments).take (max 1 nmr.toNat) := by
  suffices ∀ before (t : Broker nmr), before <+: moments →
      ((init portRouter portReg : Broker nmr).run (before.map Prod.fst)).result = .ok t →
        acceptedCopies service (init portRouter portReg : Broker nmr) before =
          (registrants service before).take (max 1 nmr.toNat) from
    this moments b List.prefix_rfl hrun
  intro before
  induction before using List.reverseRecOn with
  | nil =>
      intro t _ _
      simp [acceptedCopies, registrants]
  | append_singleton before m ih =>
      intro t hpre hrun'
      rw [List.map_append, List.map_singleton] at hrun'
      obtain ⟨u, hu, ht⟩ := Outcome.foldlM_concat_ok.mp hrun'
      have hbefore : before <+: moments := (List.prefix_append ..).trans hpre
      have hdeployed := deployed_run hlossless (hbefore.map Prod.fst) hu
      rw [acceptedCopies_concat hu, ih u hbefore hu, registrants_concat, List.take_append]
      by_cases hregisters : Registers service m.1
      · rw [if_pos hregisters]
        by_cases haccepts : u.Accepts service
        · rw [if_pos ⟨hregisters, haccepts⟩]
          rw [hdeployed.accepts_iff, count_registrationHistory] at haccepts
          rw [List.take_of_length_le (l := [m.2]) (by rw [List.length_singleton]; omega)]
        · rw [if_neg fun h => haccepts h.2]
          rw [hdeployed.accepts_iff, count_registrationHistory, not_lt] at haccepts
          rw [Nat.sub_eq_zero_of_le haccepts, List.take_zero]
      · rw [if_neg hregisters, if_neg fun h => hregisters h.1, List.take_nil]

/-! ## Pongs -/

/-- Whoever is accepted has a record. -/
theorem exists_record_of_accepted
    (hrun : ((init portRouter portReg : Broker nmr).run (moments.map Prod.fst)).result = .ok b)
    {id : UInt8}
    (hid : id ∈ acceptedCopies service (init portRouter portReg : Broker nmr) moments) :
    ∃ record, b.db.servicesDb service = some record := by
  obtain ⟨m, -, haccepted⟩ := (mem_acceptedCopies hrun).mp hid
  rw [← Option.ne_none_iff_exists', ne_eq, (numbered_placed_run hrun).1.none_iff, mem_started,
    not_not, ← List.count_pos_iff, count_registrationHistory]
  exact List.length_pos_of_mem haccepted.mem_registrants

/-- Copies are heard if and only if their numbers are below `nmr`. -/
theorem pongsHeard_iff_lt
    (hrun : ((init portRouter portReg : Broker nmr).run (moments.map Prod.fst)).result = .ok b) :
    b.PongsHeard service (acceptedCopies service (init portRouter portReg : Broker nmr) moments) ↔
      ∀ id ∈ acceptedCopies service (init portRouter portReg : Broker nmr) moments, id < nmr := by
  constructor
  · rintro ⟨slot, -, hheard⟩ id hid
    obtain ⟨record, hrecord, -, hpong⟩ := hheard ⟨id, hid⟩ everyone 0 ⟨true, false, 0, service, id⟩
      0 rfl rfl rfl
    have hok := congrArg Outcome.result hpong
    obtain ⟨-, -, hlt, -⟩ := getResponse_pong_ok rfl hok
    exact UInt8.lt_iff_toNat_lt.mpr hlt
  · intro hlt
    refine ⟨fun id => ⟨id.val.toNat, UInt8.lt_iff_toNat_lt.mp (hlt id.val id.property)⟩, ?_, ?_⟩
    · intro id id' hslot
      exact Subtype.ext (UInt8.toNat_inj.mp (Fin.mk.inj hslot))
    · rintro ⟨id, hid⟩ connected dealerIndex reply c hheartbeat rfl rfl
      obtain ⟨record, hrecord⟩ := exists_record_of_accepted hrun hid
      refine ⟨record, hrecord, watched record _, ?_⟩
      rw [getResponse, if_pos hheartbeat, ServiceDatabase.registerPong_of_some hrecord
        (UInt8.lt_iff_toNat_lt.mp (hlt reply.id hid)), Outcome.pure_bind']

/-- **The pongs of the accepted copies of a deployment are heard** exactly if every copy with a
number from `nmr` on registers when the service has no room.  Without losses that means that the
first `nmr` copies to register have numbers below `nmr`, and with at most `nmr` copies it is
always so. -/
theorem pongsHeard_iff {numCopyServer : UInt8} {fuel : ℕ} {ids : List UInt8}
    (hdeployed : deploymentUnit numCopyServer fuel = .ok ids) (hfuel : numCopyServer.toNat ≤ fuel)
    (hregistrants : registrants service moments ⊆ ids)
    (hrun : ((init portRouter portReg : Broker nmr).run (moments.map Prod.fst)).result = .ok b) :
    let accepted := acceptedCopies service (init portRouter portReg : Broker nmr) moments
    (b.PongsHeard service accepted ↔
      ∀ before m (t : Broker nmr), before ++ [m] <+: moments →
        ((init portRouter portReg).run (before.map Prod.fst)).result = .ok t →
          Registers service m.1 → nmr ≤ m.2 → ¬ t.Accepts service) ∧
    (LosslessRun nmr portRouter portReg (moments.map Prod.fst) →
      (b.PongsHeard service accepted ↔
        ∀ id ∈ (registrants service moments).take (max 1 nmr.toNat), id < nmr)) ∧
    (numCopyServer ≤ nmr → b.PongsHeard service accepted) := by
  refine ⟨?_, ?_, ?_⟩
  · rw [pongsHeard_iff_lt hrun]
    constructor
    · intro hlt before m t hpre ht hregisters hlate haccepts
      have hid := (mem_acceptedCopies hrun).mpr ⟨m, rfl, before, t, hpre, ht, hregisters, haccepts⟩
      exact UInt8.not_lt.mpr hlate (hlt m.2 hid)
    · intro hlate id hid
      obtain ⟨m, rfl, before, t, hpre, ht, hregisters, haccepts⟩ :=
        (mem_acceptedCopies hrun).mp hid
      by_contra hle
      exact hlate before m t hpre ht hregisters (UInt8.not_lt.mp hle) haccepts
  · intro hlossless
    rw [pongsHeard_iff_lt hrun, acceptedCopies_of_lossless hlossless hrun]
  · intro hfew
    rw [pongsHeard_iff_lt hrun]
    intro id hid
    obtain ⟨m, rfl, haccepted⟩ := (mem_acceptedCopies hrun).mp hid
    have hmem := hregistrants haccepted.mem_registrants
    exact UInt8.lt_of_lt_of_le (lt_of_mem_deploymentUnit hdeployed hfuel hmem) hfew

theorem pongsHeard_iff_twoOfTwo :
    ∃ b : Broker 2,
      ((init routerPortBroker regPortBroker).run ((registeredBy [1, 0]).map Prod.fst)).result =
        .ok b ∧
      let accepted := acceptedCopies 0 (init routerPortBroker regPortBroker : Broker 2)
        (registeredBy [1, 0])
      (b.PongsHeard 0 accepted ↔
        ∀ before m (t : Broker 2), before ++ [m] <+: registeredBy [1, 0] →
          ((init routerPortBroker regPortBroker).run (before.map Prod.fst)).result = .ok t →
            Registers 0 m.1 → 2 ≤ m.2 → ¬ t.Accepts 0) ∧
      (LosslessRun 2 routerPortBroker regPortBroker ((registeredBy [1, 0]).map Prod.fst) →
        (b.PongsHeard 0 accepted ↔
          ∀ id ∈ (registrants 0 (registeredBy [1, 0])).take (max 1 (2 : UInt8).toNat), id < 2)) ∧
      (2 ≤ (2 : UInt8) → b.PongsHeard 0 accepted) :=
  have hdeployed : deploymentUnit 2 2 = .ok [0, 1] := rfl
  ⟨_, rfl, pongsHeard_iff hdeployed (by decide) (by decide) rfl⟩

/-- **Three copies for two slots**: copy `2` is the first to register, and there is no slot for
its pong. -/
theorem late_slot_out_of_range :
    ¬ ∀ (nmr : UInt8) (portRouter portReg : UInt16) (service : ServiceType)
      (numCopyServer : UInt8) (fuel : ℕ) (ids : List UInt8) (moments : List Identified)
      (b : Broker nmr), deploymentUnit numCopyServer fuel = .ok ids →
        numCopyServer.toNat ≤ fuel → registrants service moments ⊆ ids →
        ((init portRouter portReg).run (moments.map Prod.fst)).result = .ok b →
          b.PongsHeard service
            (acceptedCopies service (init portRouter portReg : Broker nmr) moments) := by
  intro h
  have hdeployed : deploymentUnit 3 3 = .ok [0, 1, 2] := rfl
  obtain ⟨b, hb⟩ : ∃ b : Broker 2, ((init routerPortBroker regPortBroker).run
      ((registeredBy [2, 0, 1]).map Prod.fst)).result = .ok b := ⟨_, rfl⟩
  have hheard := h 2 routerPortBroker regPortBroker 0 3 3 _ (registeredBy [2, 0, 1]) b hdeployed
    (by decide) (by decide) hb
  have hlt := (pongsHeard_iff_lt hb).mp hheard 2 (by decide +kernel)
  exact absurd hlt (by decide)

end ReliableService.Broker
