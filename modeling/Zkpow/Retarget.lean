import Mathlib.Tactic
import Mathlib.Algebra.Order.Floor.Semifield
import Mathlib.Data.Rat.Floor
import Zkpow.Difficulty

/-!
# Compact rounding and the direction of a retarget

What `target_to_bits`, `target_from_bits` and `calculate_next_target_required` mean for the
difficulty of a chain.

* `compact_encoding_exact` — the compact form of a target is its best lower approximation;
* `retarget_direction` — a retarget is monotone in the old target and in the elapsed time, and
  keeps, lowers or raises a canonical target as the epoch took its two weeks, less or more.
-/

set_option autoImplicit false

namespace Zkpow

open Floating

/-! ## The compact encoding -/

/-- The decoder as a rational power, which for a size below three has a negative exponent. -/
theorem toNat_targetFromBits_floor (bits : CompactTarget) :
    (targetFromBits bits).toNat =
      ⌊((bits.toNat % 2 ^ 23 : Nat) : ℚ) * 256 ^ (((bits.toNat / 2 ^ 24 : Nat) : ℤ) - 3)⌋₊ %
        2 ^ 256 := by
  have hscale : ((bits.toNat % 2 ^ 23 : Nat) : ℚ) * 256 ^ (((bits.toNat / 2 ^ 24 : Nat) : ℤ) - 3) =
      ((bits.toNat % 2 ^ 23 * 256 ^ (bits.toNat / 2 ^ 24) : Nat) : ℚ) / ((256 ^ 3 : Nat) : ℚ) := by
    rw [zpow_sub₀ (by norm_num), zpow_natCast, ← mul_div_assoc, Nat.cast_mul, Nat.cast_pow]
    norm_cast
  rw [hscale, Nat.floor_div_eq_div, toNat_targetFromBits]

/-- **The encoder leaves the sign bit clear.** -/
theorem targetToBits_sign (t : Target) : targetToBits t &&& 0x00800000 = 0 := by
  by_cases ht : t.toNat = 0
  · rw [targetToBits_zero ht]
    decide
  · obtain ⟨s, m, _, _, hlt, hbits⟩ := targetToBits_normal ht
    rw [and_800000_eq_zero, hbits]
    omega

/-- The compact form rounds down among the values that fit 256 bits. -/
theorem isGreatest_targetFromBits_lt (t : Target) :
    IsGreatest {n | (Representable 256 (2 ^ 23) n ∧ n < 2 ^ 256) ∧ n ≤ t.toNat}
      (targetFromBits (targetToBits t)).toNat := by
  obtain ⟨⟨hrep, hle⟩, hgreatest⟩ := isGreatest_targetFromBits t
  constructor
  · exact ⟨⟨hrep, U256.toNat_lt _⟩, hle⟩
  · rintro n ⟨⟨hn, _⟩, hnt⟩
    exact hgreatest ⟨hn, hnt⟩

/-- The round trip through the compact form is monotone. -/
theorem targetFromBits_targetToBits_mono {t t' : Target} (h : t ≤ t') :
    targetFromBits (targetToBits t) ≤ targetFromBits (targetToBits t') := by
  rw [U256.le_iff] at h ⊢
  exact greatest_mono (isGreatest_targetFromBits t) (isGreatest_targetFromBits t') h

/-- **The compact encoding is the best lower approximation.**  The decoder is
`⌊m · 256^(s-3)⌋ mod 2^256`; the encoder leaves the sign bit clear, and encoding and decoding a
target rounds it down to the greatest `m · 256^e` with `m < 2^23`: a monotone and idempotent map
that never increases a target. -/
theorem compact_encoding_exact :
    (∀ bits : CompactTarget, (targetFromBits bits).toNat =
      ⌊((bits.toNat % 2 ^ 23 : Nat) : ℚ) * 256 ^ (((bits.toNat / 2 ^ 24 : Nat) : ℤ) - 3)⌋₊ %
        2 ^ 256) ∧
    (∀ t : Target, targetToBits t &&& 0x00800000 = 0 ∧
      IsGreatest {n | ((∃ m e, m < 2 ^ 23 ∧ n = m * 256 ^ e) ∧ n < 2 ^ 256) ∧ n ≤ t.toNat}
        (targetFromBits (targetToBits t)).toNat ∧
      targetFromBits (targetToBits t) ≤ t ∧
      targetToBits (targetFromBits (targetToBits t)) = targetToBits t) ∧
    ∀ t t' : Target, t ≤ t' →
      targetFromBits (targetToBits t) ≤ targetFromBits (targetToBits t') := by
  refine ⟨toNat_targetFromBits_floor, fun t => ⟨targetToBits_sign t, ?_, ?_, ?_⟩, ?_⟩
  · exact isGreatest_targetFromBits_lt t
  · exact U256.le_iff.2 (targetFromBits_targetToBits_le t)
  · exact targetToBits_targetFromBits t
  · intro t t' h
    exact targetFromBits_targetToBits_mono h

/-- One more than the limit rounds down to the limit. -/
theorem compact_encoding_exact_limit :
    targetFromBits (targetToBits GENESIS_TARGET) ≤
      targetFromBits (targetToBits (GENESIS_TARGET + ⟨#v[1, 0, 0, 0]⟩)) :=
  compact_encoding_exact.2.2 _ _ (by decide)

/-! ## The direction of a retarget -/

theorem clampedTimespan_le (start previous : BlockTimestamp) :
    (clampedTimespan start previous).toNat ≤ 4838400 := by
  rw [toNat_clampedTimespan]
  omega

theorem clampedTimespan_mono {start previous start' previous' : BlockTimestamp}
    (h : (previous.toNat : Int) - start.toNat ≤ (previous'.toNat : Int) - start'.toNat) :
    (clampedTimespan start previous).toNat ≤ (clampedTimespan start' previous').toNat := by
  rw [toNat_clampedTimespan, toNat_clampedTimespan]
  omega

/-- A larger old target or a longer epoch gives a larger new target: the cap and the rounding are
monotone too. -/
theorem calculateNextTargetRequired_mono {t t' : Target} (h : t ≤ t') (ht' : t' ≤ GENESIS_TARGET)
    {start previous start' previous' : BlockTimestamp}
    (helapsed : (previous.toNat : Int) - start.toNat ≤ (previous'.toNat : Int) - start'.toNat) :
    (calculateNextTargetRequired t start previous).2 ≤
      (calculateNextTargetRequired t' start' previous').2 := by
  have ht : t ≤ GENESIS_TARGET := U256.le_iff.2 ((U256.le_iff.1 h).trans (U256.le_iff.1 ht'))
  obtain ⟨clamped, hclamped, _, hnew⟩ :=
    calculateNextTargetRequired_eq ht start previous rfl (clampedTimespan_le start previous)
  obtain ⟨clamped', hclamped', _, hnew'⟩ :=
    calculateNextTargetRequired_eq ht' start' previous' rfl (clampedTimespan_le start' previous')
  have hproduct : t.toNat * (clampedTimespan start previous).toNat ≤
      t'.toNat * (clampedTimespan start' previous').toNat :=
    Nat.mul_le_mul (U256.le_iff.1 h) (clampedTimespan_mono helapsed)
  rw [hnew, hnew']
  apply targetFromBits_targetToBits_mono
  rw [U256.le_iff, hclamped, hclamped']
  exact min_le_min_right _ (Nat.div_le_div_right hproduct)

/-- **An epoch of two weeks keeps a canonical target.** -/
theorem calculateNextTargetRequired_two_weeks {t : Target} (ht : t ≤ GENESIS_TARGET)
    (hcanonical : targetFromBits (targetToBits t) = t) {start previous : BlockTimestamp}
    (hspan : (clampedTimespan start previous).toNat = 1209600) :
    (calculateNextTargetRequired t start previous).2 = t := by
  obtain ⟨clamped, hclamped, _, hnew⟩ :=
    calculateNextTargetRequired_eq ht start previous hspan (by norm_num)
  have hsame : clamped = t := by
    apply U256.toNat_inj
    rw [hclamped, Nat.mul_div_cancel _ (by norm_num)]
    exact min_eq_left (U256.le_iff.1 ht)
  rw [hnew, hsame, hcanonical]

/-- **Retargeting moves the difficulty in the right direction.**  The new target is monotone in
the old one and in the elapsed time.  From a canonical target, two weeks return the target, less
time a smaller or equal one, more time a larger or equal one. -/
theorem retarget_direction :
    (∀ a b : Target, a ≤ b → b ≤ GENESIS_TARGET → ∀ start previous : BlockTimestamp,
      (calculateNextTargetRequired a start previous).2 ≤
        (calculateNextTargetRequired b start previous).2) ∧
    (∀ t : Target, t ≤ GENESIS_TARGET → ∀ start previous start' previous' : BlockTimestamp,
      (previous.toNat : Int) - start.toNat ≤ (previous'.toNat : Int) - start'.toNat →
      (calculateNextTargetRequired t start previous).2 ≤
        (calculateNextTargetRequired t start' previous').2) ∧
    ∀ t : Target, t ≤ GENESIS_TARGET → targetFromBits (targetToBits t) = t →
      ∀ start previous : BlockTimestamp,
      ((previous.toNat : Int) - start.toNat = 1209600 →
        (calculateNextTargetRequired t start previous).2 = t) ∧
      ((previous.toNat : Int) - start.toNat < 1209600 →
        (calculateNextTargetRequired t start previous).2 ≤ t) ∧
      (1209600 < (previous.toNat : Int) - start.toNat →
        t ≤ (calculateNextTargetRequired t start previous).2) := by
  have hrefl (t : Target) : t ≤ t := U256.le_iff.2 le_rfl
  refine ⟨?_, ?_, ?_⟩
  · intro a b hab hb start previous
    exact calculateNextTargetRequired_mono hab hb le_rfl
  · intro t ht start previous start' previous' h
    exact calculateNextTargetRequired_mono (hrefl t) ht h
  · intro t ht hcanonical start previous
    -- an epoch of two weeks to compare the others with
    have htwo : (calculateNextTargetRequired t 0 1209600).2 = t :=
      calculateNextTargetRequired_two_weeks ht hcanonical (by decide)
    have hspan : ((1209600 : BlockTimestamp).toNat : Int) - (0 : BlockTimestamp).toNat = 1209600 :=
      rfl
    refine ⟨?_, ?_, ?_⟩
    · intro h
      apply calculateNextTargetRequired_two_weeks ht hcanonical
      rw [toNat_clampedTimespan, h]
      rfl
    · intro h
      have hle : (calculateNextTargetRequired t start previous).2 ≤
          (calculateNextTargetRequired t 0 1209600).2 :=
        calculateNextTargetRequired_mono (hrefl t) ht (by omega)
      rwa [htwo] at hle
    · intro h
      have hle : (calculateNextTargetRequired t 0 1209600).2 ≤
          (calculateNextTargetRequired t start previous).2 :=
        calculateNextTargetRequired_mono (hrefl t) ht (by omega)
      rwa [htwo] at hle

/-- The limit after an epoch that runs backwards, one second, two weeks and a second more. -/
theorem retarget_direction_limit :
    (calculateNextTargetRequired ⟨#v[1, 0, 0, 0]⟩ 5 6).2 ≤
        (calculateNextTargetRequired GENESIS_TARGET 5 6).2 ∧
      (calculateNextTargetRequired GENESIS_TARGET 6 5).2 ≤
        (calculateNextTargetRequired GENESIS_TARGET 5 6).2 ∧
      (calculateNextTargetRequired GENESIS_TARGET 5 6).2 ≤ GENESIS_TARGET ∧
      (calculateNextTargetRequired GENESIS_TARGET 5 1209605).2 = GENESIS_TARGET ∧
      GENESIS_TARGET ≤ (calculateNextTargetRequired GENESIS_TARGET 5 1209606).2 := by
  obtain ⟨hold, helapsed, hcanonical⟩ := retarget_direction
  refine ⟨hold _ _ (by decide) (by decide) 5 6, helapsed _ (by decide) 6 5 5 6 (by decide),
    ?_, ?_, ?_⟩
  · exact (hcanonical GENESIS_TARGET (by decide) (by decide) 5 6).2.1 (by decide)
  · exact (hcanonical GENESIS_TARGET (by decide) (by decide) 5 1209605).1 (by decide)
  · exact (hcanonical GENESIS_TARGET (by decide) (by decide) 5 1209606).2.2 (by decide)

end Zkpow
