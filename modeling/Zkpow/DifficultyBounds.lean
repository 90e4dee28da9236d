import Mathlib.Tactic
import Zkpow.Chain

/-!
# How far the difficulty can move

A retarget multiplies the target by at most four, and divides it by at most four up to what the
compact form rounds off, one part in `2^15`.  Between retargets the target stays.  So the target of
a state is bounded from both sides by the number of epoch boundaries since an earlier one, whatever
the timestamps of the headers between are.

* `acceptHeader_target_bounds` — one header;
* `applyHeaders_target_bounds` — a whole batch, also one that fails.
-/

set_option autoImplicit false

namespace Zkpow

open ExceptFold

variable {hashHeader : Header → BlockHash}

/-! ## One retarget -/

/-- The compact form rounds off at most one part in `2^15`. -/
theorem targetFromBits_targetToBits_ge (t : Target) :
    32767 * t.toNat ≤ 32768 * (targetFromBits (targetToBits t)).toNat := by
  have herror := Floating.sub_greatest_le (N := 2 ^ 15) (by norm_num) (by norm_num) (by norm_num)
    (isGreatest_targetFromBits t)
  have hle := targetFromBits_targetToBits_le t
  omega

theorem calculateNextTargetRequired_bounds {oldTarget : Target} (hold : oldTarget ≤ GENESIS_TARGET)
    (start previous : BlockTimestamp) :
    (calculateNextTargetRequired oldTarget start previous).2.toNat ≤ 4 * oldTarget.toNat ∧
      32767 * (oldTarget.toNat + 1) ≤
        131072 * ((calculateNextTargetRequired oldTarget start previous).2.toNat + 1) := by
  have hspan := toNat_clampedTimespan start previous
  obtain ⟨clamped, hclamped, -, hnew⟩ := calculateNextTargetRequired_eq hold start previous
    rfl (by rw [hspan]; omega)
  have hlow : oldTarget.toNat * 302400 / 1209600 ≤
      oldTarget.toNat * (clampedTimespan start previous).toNat / 1209600 :=
    Nat.div_le_div_right (Nat.mul_le_mul_left _ (by rw [hspan]; omega))
  have hhigh : oldTarget.toNat * (clampedTimespan start previous).toNat / 1209600 ≤
      oldTarget.toNat * 4838400 / 1209600 :=
    Nat.div_le_div_right (Nat.mul_le_mul_left _ (by rw [hspan]; omega))
  have hlimit := U256.le_iff.1 hold
  have hround := targetFromBits_targetToBits_ge clamped
  have hdown := targetFromBits_targetToBits_le clamped
  rw [hnew]
  omega

/-! ## One header -/

/-- How many of the `n` heights after `h` are epoch boundaries. -/
def retargets (h n : Nat) : Nat := (h + n) / 2016 - h / 2016

theorem retargets_succ (h n : Nat) :
    retargets h (n + 1) = (if (h + 1) % 2016 = 0 then 1 else 0) + retargets (h + 1) n := by
  unfold retargets
  split <;> omega

/-- **One header**: the target moves at a boundary only, and not far. -/
theorem acceptHeader_target_bounds {s s' : State} {nh : NewHeader} (hs : s.Consistent)
    (h : acceptHeader hashHeader s nh = .ok s') :
    if (s.height + 1).toNat % 2016 = 0 then
      s'.currentTarget.toNat ≤ 4 * s.currentTarget.toNat ∧
        32767 * (s.currentTarget.toNat + 1) ≤ 131072 * (s'.currentTarget.toNat + 1)
    else s'.currentTarget = s.currentTarget := by
  obtain ⟨-, -, rfl⟩ := acceptHeader_ok.1 h
  have htarget : (s.extend hashHeader nh).currentTarget = s.nextDifficulty.target := rfl
  rw [htarget, State.nextDifficulty]
  simp only [mod_EPOCH_LENGTH_eq_zero]
  split
  · exact calculateNextTargetRequired_bounds hs.le_limit s.epochStartTimestamp s.tipTimestamp
  · rfl

/-! ## Runs -/

theorem foldlM_target_bounds : ∀ {headers : List NewHeader} {s t : State}, s.Consistent →
    s.height.toNat + headers.length < 2 ^ 32 →
    headers.foldlM (acceptHeader hashHeader) s = .ok t →
    t.currentTarget.toNat ≤
        4 ^ retargets s.height.toNat headers.length * s.currentTarget.toNat ∧
      32767 ^ retargets s.height.toNat headers.length * (s.currentTarget.toNat + 1) ≤
        131072 ^ retargets s.height.toNat headers.length * (t.currentTarget.toNat + 1)
  | [], s, t, _, _, h => by
    rw [foldlM_nil_ok] at h
    rw [← h]
    simp [retargets]
  | nh :: headers, s, t, hs, hbound, h => by
    rw [List.length_cons] at hbound ⊢
    obtain ⟨s', hacc, hrest⟩ := foldlM_cons_ok.1 h
    have hheight := toNat_height_of_acceptHeader hacc (by omega)
    obtain ⟨hup, hdown⟩ := foldlM_target_bounds (acceptHeader_consistent hs hacc) (by omega) hrest
    have hstep := acceptHeader_target_bounds hs hacc
    rw [toNat_add_one (by omega)] at hstep
    rw [hheight] at hup hdown
    rw [retargets_succ]
    generalize retargets (s.height.toNat + 1) headers.length = k at hup hdown ⊢
    split
    · rename_i hboundary
      rw [if_pos hboundary] at hstep
      rw [Nat.add_comm 1 k, pow_succ, pow_succ, pow_succ]
      constructor
      · calc t.currentTarget.toNat ≤ 4 ^ k * s'.currentTarget.toNat := hup
          _ ≤ 4 ^ k * (4 * s.currentTarget.toNat) := Nat.mul_le_mul_left _ hstep.1
          _ = 4 ^ k * 4 * s.currentTarget.toNat := (Nat.mul_assoc _ _ _).symm
      · calc 32767 ^ k * 32767 * (s.currentTarget.toNat + 1)
            = 32767 ^ k * (32767 * (s.currentTarget.toNat + 1)) := Nat.mul_assoc _ _ _
          _ ≤ 32767 ^ k * (131072 * (s'.currentTarget.toNat + 1)) :=
            Nat.mul_le_mul_left _ hstep.2
          _ = 131072 * (32767 ^ k * (s'.currentTarget.toNat + 1)) := Nat.mul_left_comm _ _ _
          _ ≤ 131072 * (131072 ^ k * (t.currentTarget.toNat + 1)) := Nat.mul_le_mul_left _ hdown
          _ = 131072 ^ k * 131072 * (t.currentTarget.toNat + 1) := by ring
    · rename_i hinside
      rw [if_neg hinside] at hstep
      rw [Nat.zero_add, ← hstep]
      exact ⟨hup, hdown⟩

/-- **The difficulty cannot be moved fast.**  However the timestamps of a batch are chosen, each
epoch boundary passed makes the target at most four times as high, and lowers it to no less than a
quarter up to one part in `2^15`; with no boundary passed it is unchanged. -/
theorem applyHeaders_target_bounds (hashHeader : Header → BlockHash) {s t : State}
    {headers : List NewHeader} {hints : List BlockTimestamp} {result : Except ApplyFailure Unit}
    (hs : s.Consistent) (hbound : s.height.toNat + headers.length < 2 ^ 32)
    (h : applyHeaders hashHeader s headers hints = .ok (t, result)) :
    let boundaries := t.height.toNat / 2016 - s.height.toNat / 2016
    t.currentTarget.toNat ≤ 4 ^ boundaries * s.currentTarget.toNat ∧
      32767 ^ boundaries * (s.currentTarget.toNat + 1) ≤
        131072 ^ boundaries * (t.currentTarget.toNat + 1) := by
  obtain ⟨n, hn, hrun, -⟩ := applyHeaders_prefix h
  have hlen : (headers.take n).length = n := List.length_take_of_le hn
  have hheight := toNat_height_of_foldlM hrun (by omega)
  have hbounds := foldlM_target_bounds hs (by omega) hrun
  rw [retargets, ← hheight] at hbounds
  exact hbounds

/-- An epoch that took no time at all divides the mainnet target by four. -/
theorem applyHeaders_target_bounds_testState :
    let s := { testState with height := 2015 }
    let t := s.extend zeroHash (headerAt 1)
    t.currentTarget.toNat ≤ 4 ^ 1 * s.currentTarget.toNat ∧
      32767 ^ 1 * (s.currentTarget.toNat + 1) ≤ 131072 ^ 1 * (t.currentTarget.toNat + 1) := by
  intro s t
  have hconsistent : s.Consistent := ⟨by decide +kernel, testState_isGenesis.work, by decide⟩
  have hrun : applyHeaders zeroHash s [headerAt 1] [0] = .ok (t, .ok ()) := by decide +kernel
  have hone : t.height.toNat / 2016 - s.height.toNat / 2016 = 1 := by decide +kernel
  have hbounds := applyHeaders_target_bounds zeroHash hconsistent (by decide) hrun
  simp only [hone] at hbounds
  exact hbounds

end Zkpow
