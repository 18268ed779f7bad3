import ReliableService.Model.ServerLoop

/-!
# Deadline arithmetic

Every deadline is set by `time_add_ms` and looked at by `time_cmp`.  `time_cmp` is exact on
normalized times (`timeCmp_eq_sign`), and `time_add_ms` always denotes the right instant
(`nanoseconds_timeAddMs`).  But the carry is taken on `>` and not on `>=`: when the nanoseconds
come to exactly `10 ^ 9` the result is not normalized, and `time_cmp` then reports the instant
itself as later (`timeCmp_of_missed_carry`).  `exactDeadline_iff` says that this is the only
thing that goes wrong.

The two intervals of the broker are whole seconds and never get there.  The interval of a
copy, 2500 ms, does.
-/

namespace ReliableService

/-- `tv_sec` is not negative and `tv_nsec` is below `10 ^ 9`. -/
structure Timespec.Normalized (t : Timespec) : Prop where
  sec_nonneg : 0 ≤ t.tvSec
  nsec_nonneg : 0 ≤ t.tvNsec
  nsec_lt : t.tvNsec < 1000000000

/-- The instant a `timespec` denotes. -/
def Timespec.nanoseconds (t : Timespec) : Int := t.tvSec * 1000000000 + t.tvNsec

/-- The deadline `ms` milliseconds after `t` is what the code takes it for. -/
structure ExactDeadline (t : Timespec) (ms : Int) : Prop where
  normalized : (timeAddMs t ms).Normalized
  instant : (timeAddMs t ms).nanoseconds = t.nanoseconds + ms * 1000000
  compares : ∀ now : Timespec, now.Normalized →
    timeCmp now (timeAddMs t ms) = (now.nanoseconds - t.nanoseconds - ms * 1000000).sign

/-- The carry of `time_add_ms` is missed. -/
def MissedCarry (t : Timespec) (ms : Int) : Prop :=
  t.tvNsec + ms % 1000 * 1000000 = 1000000000

instance (t : Timespec) (ms : Int) : Decidable (MissedCarry t ms) :=
  inferInstanceAs (Decidable (_ = _))

variable {t now : Timespec} {ms : Int}

/-- A full second. -/
theorem normalized_of_seconds {s : Int} (hs : 0 ≤ s) : (⟨s, 0⟩ : Timespec).Normalized :=
  ⟨hs, le_rfl, show (0 : Int) < 1000000000 by decide⟩

/-! ## Comparing -/

theorem timeCmp_eq_sign (hnow : now.Normalized) (ht : t.Normalized) :
    timeCmp now t = (now.nanoseconds - t.nanoseconds).sign := by
  obtain ⟨-, hnow, hnow'⟩ := hnow
  obtain ⟨-, ht, ht'⟩ := ht
  unfold timeCmp Timespec.nanoseconds
  split_ifs with hgt hlt hgt' hlt'
  · rw [Int.sign_eq_one_of_pos (by omega)]
  · rw [Int.sign_eq_neg_one_of_neg (by omega)]
  · rw [Int.sign_eq_one_of_pos (by omega)]
  · rw [Int.sign_eq_neg_one_of_neg (by omega)]
  · rw [show now.tvSec * 1000000000 + now.tvNsec - (t.tvSec * 1000000000 + t.tvNsec) = 0 by omega,
      Int.sign_zero]

/-- Against a time whose carry is missing, `time_cmp` takes equal for later. -/
theorem timeCmp_of_missed_carry (hnow : now.Normalized) (ht : t.tvNsec = 1000000000) :
    timeCmp now t = if now.nanoseconds = t.nanoseconds then 1
      else (now.nanoseconds - t.nanoseconds).sign := by
  obtain ⟨-, hnow, hnow'⟩ := hnow
  unfold timeCmp Timespec.nanoseconds
  split_ifs with hgt heq hlt heq' hgt' heq'' hlt'
  · rfl
  · rw [Int.sign_eq_one_of_pos (by omega)]
  · omega
  · rw [Int.sign_eq_neg_one_of_neg (by omega)]
  · omega
  · omega
  · omega
  · rw [Int.sign_eq_neg_one_of_neg (by omega)]
  · omega
  · omega

/-! ## Adding -/

/-- For an interval that is not negative the truncated division of the source is the usual one. -/
theorem timeAddMs_of_nonneg (t : Timespec) (hms : 0 ≤ ms) :
    timeAddMs t ms =
      if t.tvNsec + ms % 1000 * 1000000 > 1000000000 then
        ⟨t.tvSec + ms / 1000 + 1, t.tvNsec + ms % 1000 * 1000000 - 1000000000⟩
      else ⟨t.tvSec + ms / 1000, t.tvNsec + ms % 1000 * 1000000⟩ := by
  unfold timeAddMs
  rw [Int.tdiv_eq_ediv_of_nonneg hms, Int.tmod_eq_emod_of_nonneg hms]

/-- **The instant is right**, carried or not. -/
theorem nanoseconds_timeAddMs (t : Timespec) (hms : 0 ≤ ms) :
    (timeAddMs t ms).nanoseconds = t.nanoseconds + ms * 1000000 := by
  rw [timeAddMs_of_nonneg t hms]
  have hdiv := Int.emod_add_mul_ediv ms 1000
  unfold Timespec.nanoseconds
  split <;> dsimp only <;> omega

/-- **The result is normalized** unless the carry is missed. -/
theorem normalized_timeAddMs_iff (ht : t.Normalized) (hms : 0 ≤ ms) :
    (timeAddMs t ms).Normalized ↔ ¬ MissedCarry t ms := by
  obtain ⟨hsec, hnsec, hlt⟩ := ht
  rw [timeAddMs_of_nonneg t hms, MissedCarry]
  constructor
  · rintro ⟨-, -, hlt'⟩ hmissed
    rw [if_neg (by omega)] at hlt'
    dsimp only at hlt'
    omega
  · intro hcarried
    split
    · constructor <;> dsimp only <;> omega
    · constructor <;> dsimp only <;> omega

/-- **Deadline arithmetic is exact** except where the nanoseconds come to a whole second. -/
theorem exactDeadline_iff (ht : t.Normalized) (hms : 0 ≤ ms) :
    ExactDeadline t ms ↔ ¬ MissedCarry t ms := by
  rw [← normalized_timeAddMs_iff ht hms]
  refine ⟨ExactDeadline.normalized, fun hnormalized => ⟨hnormalized, ?_, ?_⟩⟩
  · exact nanoseconds_timeAddMs t hms
  · intro now hnow
    rw [timeCmp_eq_sign hnow hnormalized, nanoseconds_timeAddMs t hms, Int.sub_sub]

theorem exactDeadline_iff_requestTimeout :
    ExactDeadline ⟨7, 999999999⟩ requestTimeout ↔ ¬ MissedCarry ⟨7, 999999999⟩ requestTimeout :=
  exactDeadline_iff ⟨by decide, by decide, by decide⟩ (by decide)

/-- **Half a second and half a second** make a whole one, and the carry is missed: the deadline
expires at its own instant. -/
theorem carry_missed :
    ¬ ∀ (t : Timespec) (ms : Int), t.Normalized → 0 ≤ ms → ExactDeadline t ms := by
  intro h
  have hexact := h ⟨0, 500000000⟩ 500 ⟨by decide, by decide, by decide⟩ (by decide)
  have hcompares := hexact.compares ⟨1, 0⟩ ⟨by decide, by decide, by decide⟩
  exact absurd hcompares (by decide)

/-! ## Expiry -/

/-- **When a deadline has expired**: after its interval, and after a missed carry also at its
end. -/
theorem expired_iff (ht : t.Normalized) (hms : 0 ≤ ms) (hnow : now.Normalized) :
    timeCmp now (timeAddMs t ms) = 1 ↔
      ms * 1000000 < now.nanoseconds - t.nanoseconds ∨
        MissedCarry t ms ∧ now.nanoseconds - t.nanoseconds = ms * 1000000 := by
  have hinstant := nanoseconds_timeAddMs t hms
  by_cases hmissed : MissedCarry t ms
  · have hnsec : (timeAddMs t ms).tvNsec = 1000000000 := by
      rw [timeAddMs_of_nonneg t hms, if_neg (by unfold MissedCarry at hmissed; omega)]
      exact hmissed
    rw [timeCmp_of_missed_carry hnow hnsec, hinstant]
    split
    · rename_i heq
      exact iff_of_true rfl (.inr ⟨hmissed, by omega⟩)
    · rename_i hne
      rw [Int.sign_eq_one_iff_pos]
      constructor
      · intro hpos
        exact .inl (by omega)
      · rintro (hlater | ⟨-, heq⟩)
        · omega
        · exact absurd (by omega) hne
  · rw [timeCmp_eq_sign hnow ((normalized_timeAddMs_iff ht hms).mpr hmissed), hinstant,
      Int.sign_eq_one_iff_pos]
    constructor
    · intro hpos
      exact .inl (by omega)
    · rintro (hlater | ⟨hmissed', -⟩)
      · omega
      · exact absurd hmissed' hmissed

/-- Intervals of whole seconds never miss a carry. -/
theorem exactDeadline_of_seconds (ht : t.Normalized) (hms : 0 ≤ ms) (hsec : ms % 1000 = 0) :
    ExactDeadline t ms := by
  refine (exactDeadline_iff ht hms).mpr ?_
  have := ht.nsec_lt
  rw [MissedCarry, hsec]
  omega

/-- The deadlines of the broker are exact. -/
theorem exactDeadline_broker (ht : t.Normalized) :
    ExactDeadline t heartbeatInterval ∧ ExactDeadline t requestTimeout :=
  ⟨exactDeadline_of_seconds ht (by decide) (by decide),
    exactDeadline_of_seconds ht (by decide) (by decide)⟩

/-- The deadline of a copy is exact unless it is set half a second past a full one. -/
theorem exactDeadline_copy_iff (ht : t.Normalized) :
    ExactDeadline t (heartbeatInterval + wcdPing) ↔ t.tvNsec ≠ 500000000 := by
  rw [exactDeadline_iff ht (by decide), MissedCarry, heartbeatInterval, wcdPing]
  omega

end ReliableService
