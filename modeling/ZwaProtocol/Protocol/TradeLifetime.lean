import ZwaProtocol.Protocol.Intent

/-!
Arithmetic on timestamps. A duration is added exactly or not at all, and the seconds left
until an expiry are how far a clock may still be moved before the trade expires.
-/
namespace ZwaProtocol

/-- A run of readings of a clock that does not go back. -/
def ClockReadings (readings : List UnixSeconds) : Prop :=
  readings.Pairwise (fun earlier later => earlier.get ≤ later.get)

/-- What holds up to some time holds of a first part of the readings. -/
theorem ClockReadings.split {readings : List UnixSeconds} (h : ClockReadings readings)
    (holds : UnixSeconds → Prop)
    (downward : ∀ earlier later : UnixSeconds,
      earlier.get ≤ later.get → holds later → holds earlier) :
    ∃ first rest, readings = first ++ rest ∧ (∀ now ∈ first, holds now) ∧
      (∀ now ∈ rest, ¬ holds now) ∧ ClockReadings rest := by
  induction readings with
  | nil => exact ⟨[], [], rfl, by simp, by simp, h⟩
  | cons reading readings ih =>
      obtain ⟨hlater, hreadings⟩ := List.pairwise_cons.mp h
      by_cases hreading : holds reading
      · obtain ⟨first, rest, rfl, hfirst, hrest, hclock⟩ := ih hreadings
        exact ⟨reading :: first, rest, rfl, List.forall_mem_cons.mpr ⟨hreading, hfirst⟩, hrest,
          hclock⟩
      · refine ⟨[], reading :: readings, rfl, by simp, ?_, h⟩
        intro now hnow
        obtain rfl | hnow := List.mem_cons.mp hnow
        · exact hreading
        · exact fun hholds => hreading (downward _ _ (hlater now hnow) hholds)

namespace UnixSeconds

/-- The time that is this many seconds after the epoch, where 64 bits hold it. -/
def ofSeconds (total : Nat) : Result UnixSeconds :=
  if total < 2 ^ 64 then .ok ⟨UInt64.ofNat total⟩ else .error (.invalidTimestamp .overflow)

section
variable {start finish : UnixSeconds} {seconds : UInt64} {total : Nat}

theorem ofSeconds_eq_ok : ofSeconds total = .ok finish ↔ total = finish.get.toNat := by
  rw [ofSeconds]
  split
  · next hfits =>
      have htotal : (UInt64.ofNat total).toNat = total := UInt64.toNat_ofNat_of_lt' hfits
      constructor
      · intro hok
        rw [← Except.ok.inj hok, htotal]
      · rintro rfl
        rw [UInt64.ofNat_toNat]
  · next hover =>
      refine iff_of_false (by simp) (fun htotal => hover ?_)
      rw [htotal]
      exact finish.get.toNat_lt

theorem ofSeconds_eq_error :
    ofSeconds total = .error (.invalidTimestamp .overflow) ↔ 2 ^ 64 ≤ total := by
  rw [ofSeconds]
  split
  · next hfits => exact iff_of_false (by simp) (Nat.not_le.mpr hfits)
  · next hover => exact iff_of_true rfl (Nat.le_of_not_lt hover)

/-- Addition is exact. -/
theorem checkedAddSeconds_eq (start : UnixSeconds) (seconds : UInt64) :
    checkedAddSeconds start seconds = ofSeconds (start.get.toNat + seconds.toNat) := by
  rw [checkedAddSeconds, ofSeconds, UInt64.ofNat_add, UInt64.ofNat_toNat, UInt64.ofNat_toNat]

theorem checkedAddSeconds_eq_ok :
    checkedAddSeconds start seconds = .ok finish ↔
      start.get.toNat + seconds.toNat = finish.get.toNat := by
  rw [checkedAddSeconds_eq, ofSeconds_eq_ok]

/-- What follows a time that overflows overflows too. -/
theorem ofSeconds_bind {next : UnixSeconds → Result UnixSeconds} {more : Nat}
    (adds : ∀ middle, next middle = ofSeconds (middle.get.toNat + more)) :
    (ofSeconds total >>= next) = ofSeconds (total + more) := by
  cases htotal : ofSeconds total with
  | ok middle =>
      rw [ofSeconds_eq_ok.mp htotal]
      exact adds middle
  | error error =>
      have hover : 2 ^ 64 ≤ total := by
        by_contra hfits
        rw [ofSeconds, if_pos (Nat.lt_of_not_le hfits)] at htotal
        simp at htotal
      have herror := htotal.symm.trans (ofSeconds_eq_error.mpr hover)
      rw [herror, ofSeconds_eq_error.mpr (hover.trans (Nat.le_add_right total more))]
      rfl

/-- Adding in two steps is adding the sum of the steps, and overflows with it. -/
theorem checkedAddSeconds_assoc (start : UnixSeconds) (seconds more : UInt64) :
    (checkedAddSeconds start seconds >>= fun middle => checkedAddSeconds middle more) =
      checkedAddSeconds ⟨seconds⟩ more >>= fun sum => checkedAddSeconds start sum.get := by
  have hsum (sum : UnixSeconds) :
      checkedAddSeconds start sum.get = ofSeconds (sum.get.toNat + start.get.toNat) := by
    rw [checkedAddSeconds_eq, Nat.add_comm]
  rw [checkedAddSeconds_eq, ofSeconds_bind (fun middle => checkedAddSeconds_eq middle more),
    checkedAddSeconds_eq, ofSeconds_bind hsum]
  congr 1
  change start.get.toNat + seconds.toNat + more.toNat
    = seconds.toNat + more.toNat + start.get.toNat
  omega

theorem secondsUntil_eq_some :
    secondsUntil start finish = some seconds ↔
      start.get.toNat + seconds.toNat = finish.get.toNat := by
  rw [secondsUntil]
  by_cases hle : start.get ≤ finish.get
  · have hnat : start.get.toNat ≤ finish.get.toNat := UInt64.le_iff_toNat_le.mp hle
    have hdifference : (finish.get - start.get).toNat = finish.get.toNat - start.get.toNat :=
      UInt64.toNat_sub_of_le _ _ hle
    rw [if_pos hle, Option.some.injEq, ← UInt64.toNat_inj, hdifference]
    omega
  · have hnat : ¬ start.get.toNat ≤ finish.get.toNat := fun h => hle (UInt64.le_iff_toNat_le.mpr h)
    rw [if_neg hle]
    exact iff_of_false (by simp) (by omega)

theorem secondsUntil_eq_none : secondsUntil start finish = none ↔ finish.get < start.get := by
  rw [secondsUntil]
  split
  · next hle => exact iff_of_false (by simp) (UInt64.not_lt.mpr hle)
  · next hlt => exact iff_of_true rfl (UInt64.not_le.mp hlt)

end

end UnixSeconds

open UnixSeconds

/-- Moving the clock keeps a trade alive exactly for the seconds it has left. -/
theorem TradeIntent.alive_after_iff {intent : TradeIntent} {now : UnixSeconds}
    {left seconds : UInt64} (h : secondsUntil now intent.expiry.instant = some left) :
    (∃ later, checkedAddSeconds now seconds = .ok later ∧ intent.isExpiredAt later = false) ↔
      seconds ≤ left := by
  have hleft : now.get.toNat + left.toNat = intent.expiry.get.toNat := secondsUntil_eq_some.mp h
  have hexpiry := intent.expiry.get.toNat_lt
  rw [UInt64.le_iff_toNat_le]
  constructor
  · rintro ⟨later, hlater, halive⟩
    have hsum := checkedAddSeconds_eq_ok.mp hlater
    have hbefore := UInt64.le_iff_toNat_le.mp (TradeIntent.isExpiredAt_eq_false.mp halive)
    omega
  · intro hseconds
    have hfits : now.get.toNat + seconds.toNat < 2 ^ 64 := by omega
    have hsum := checkedAddSeconds_eq_ok.mp (if_pos hfits : checkedAddSeconds now seconds = _)
    refine ⟨_, if_pos hfits, ?_⟩
    rw [TradeIntent.isExpiredAt_eq_false, UInt64.le_iff_toNat_le]
    omega

/-- Timestamps add up and trades live as long as they say. Adding a duration reaches a time
exactly when the seconds until that time are the duration, and overflows exactly when the
sum needs more than 64 bits; durations compose; a trade has no seconds left exactly when it
is expired, and otherwise stays unexpired for those seconds and not one more. -/
theorem timestamps_exact (now later : UnixSeconds) (seconds more : UInt64)
    (intent : TradeIntent) :
    (checkedAddSeconds now seconds = .ok later ↔ secondsUntil now later = some seconds) ∧
    (checkedAddSeconds now seconds = .error (.invalidTimestamp .overflow) ↔
      2 ^ 64 ≤ now.get.toNat + seconds.toNat) ∧
    (checkedAddSeconds now seconds >>= fun middle => checkedAddSeconds middle more) =
      (checkedAddSeconds ⟨seconds⟩ more >>= fun sum => checkedAddSeconds now sum.get) ∧
    (secondsUntil now intent.expiry.instant = none ↔ intent.isExpiredAt now = true) ∧
    ∀ left, secondsUntil now intent.expiry.instant = some left →
      ((∃ later, checkedAddSeconds now seconds = .ok later ∧ intent.isExpiredAt later = false) ↔
        seconds ≤ left) := by
  refine ⟨?_, ?_, checkedAddSeconds_assoc now seconds more, ?_,
    fun left h => TradeIntent.alive_after_iff h⟩
  · rw [checkedAddSeconds_eq_ok, secondsUntil_eq_some]
  · rw [checkedAddSeconds_eq, ofSeconds_eq_error]
  · rw [secondsUntil_eq_none, TradeIntent.isExpiredAt_eq_true]
    rfl

theorem timestamps_exact_blank :
    ∃ later, checkedAddSeconds ⟨4⟩ 6 = .ok later ∧
      (TradeIntent.blank 10).isExpiredAt later = false :=
  ((timestamps_exact ⟨4⟩ ⟨10⟩ 6 0 (.blank 10)).2.2.2.2 6 rfl).mpr (by decide)

end ZwaProtocol
