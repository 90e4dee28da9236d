import Mathlib.Tactic
import Zkpow.Difficulty

/-!
# Work of a target

`work_from_target` of `crates/core/src/lib.rs`: 257 steps of binary long division of `2^256` by
`target + 1`.  The remainder is kept in 256 bits; the bit a shift evicts is the step's carry and
counts as part of the remainder (`divisionStep_inv`).

* `workFromTarget_error_iff` — the division is refused for the saturated target only;
* `toNat_workFromTarget` — otherwise it computes `⌊2^256 / (target + 1)⌋`, modulo `2^256` (which
  matters for the target zero only);
* `remainder_lt` — the remainder is below the divisor after every step.
-/

set_option autoImplicit false

namespace Zkpow

/-- The division loop, `for bit in (0..=256).rev()`. -/
def divide (divisor : U256) : U256 :=
  ((List.range 257).reverse.foldl (divisionStep divisor) (U256.ZERO, U256.ZERO)).2

/-- Compute one-block cumulative-work units from the expanded target. -/
def workFromTarget (target : Target) : Except TargetError ChainWork := do
  let divisor ← incrementTarget target
  return divide divisor

/-! ## Quotient bits -/

/-- Replacing limb `i` changes the number by `2^(64 i)` times the difference. -/
theorem toNat_set_limb (a : U256) {i : Nat} (hi : i < 4) (x : UInt64) :
    (U256.mk (a.limbs.set i x)).toNat + 2 ^ (64 * i) * a.limbs[i].toNat =
      a.toNat + 2 ^ (64 * i) * x.toNat := by
  rw [U256.toNat_eq_limbs, U256.toNat_eq_limbs]
  interval_cases i <;> simp <;> ring

/-- Limb `i` as a part of the number. -/
theorem toNat_limb (a : U256) {i : Nat} (hi : i < 4) :
    a.limbs[i].toNat = a.toNat / 2 ^ (64 * i) % 2 ^ 64 := by
  have h0 := a.limbs[0].toNat_lt
  have h1 := a.limbs[1].toNat_lt
  have h2 := a.limbs[2].toNat_lt
  have h3 := a.limbs[3].toNat_lt
  rw [U256.toNat_eq_limbs]
  interval_cases i <;> omega

/-- **Setting a bit that is clear adds its weight**: the quotient so far is a multiple of the
next higher power. -/
theorem toNat_setQuotientBit {q : U256} {bit : Nat} (h : bit < 256)
    (hq : 2 ^ (bit + 1) ∣ q.toNat) :
    (setQuotientBit q bit h).toNat = q.toNat + 2 ^ bit := by
  have hi : bit / 64 < 4 := by omega
  have hset := toNat_set_limb q hi (q.limbs[bit / 64] ||| 1 <<< UInt64.ofNat (bit % 64))
  have hlimb := toNat_limb q hi
  generalize hl : q.limbs[bit / 64] = l at hset hlimb
  have hmask : ((1 : UInt64) <<< UInt64.ofNat (bit % 64)).toNat = 2 ^ (bit % 64) := by
    have hk : bit % 64 < 64 := Nat.mod_lt _ (by decide)
    have hp : 2 ^ (bit % 64) < 2 ^ 64 := Nat.pow_lt_pow_right (by decide) hk
    rw [UInt64.toNat_shiftLeft, Nat.shiftLeft_eq, UInt64.toNat_ofNat',
      Nat.mod_eq_of_lt (by omega : bit % 64 < 2 ^ 64), Nat.mod_eq_of_lt hk]
    show 1 * 2 ^ (bit % 64) % 2 ^ 64 = _
    rw [Nat.one_mul, Nat.mod_eq_of_lt hp]
  have hdvd : 2 ^ (bit % 64 + 1) ∣ l.toNat := by
    rw [hlimb, Nat.dvd_mod_iff (pow_dvd_pow 2 (by omega))]
    obtain ⟨c, hc⟩ := hq
    refine ⟨c, ?_⟩
    rw [hc, show bit + 1 = 64 * (bit / 64) + (bit % 64 + 1) by omega, pow_add, Nat.mul_assoc,
      Nat.mul_div_cancel_left _ (by positivity)]
  have hor : (l ||| 1 <<< UInt64.ofNat (bit % 64)).toNat = l.toNat + 2 ^ (bit % 64) := by
    obtain ⟨c, hc⟩ := hdvd
    rw [UInt64.toNat_or, hmask, hc, ← Nat.two_pow_add_eq_or_of_lt (by
      exact Nat.pow_lt_pow_right (by decide) (by omega))]
  have hpow : 2 ^ bit = 2 ^ (64 * (bit / 64)) * 2 ^ (bit % 64) := by
    rw [← pow_add]
    congr 1
    omega
  unfold setQuotientBit
  dsimp only
  rw [hl, hpow]
  rw [hor, Nat.mul_add] at hset
  omega

/-! ## The division -/

/-- What holds before bit `b` is processed: `r < d`, and the quotient bits found so far, bit 256
included in `Q`, account for the dividend. -/
structure DivisionInv (d b : Nat) (s : U256 × U256) (Q : Nat) : Prop where
  quotient : s.2.toNat = Q % 2 ^ 256
  aligned : 2 ^ b ∣ Q
  total : Q * d + s.1.toNat * 2 ^ b = 2 ^ 256
  remainder_lt : s.1.toNat < d

/-- The shifted remainder and what is left of it after the conditional subtraction. -/
theorem subtract_shifted {d r : U256} {carry : Bool} {v : Nat}
    (hv : r.toNat + 2 ^ 256 * carry.toNat = v) (hd : v < 2 * d.toNat) :
    (carry || decide (d ≤ r)) = decide (d.toNat ≤ v) ∧
      (d.toNat ≤ v → (subAssign r d).1.toNat = v - d.toNat) := by
  have hr := r.toNat_lt
  have hdl := d.toNat_lt
  have hs := (subAssign_spec r d).1
  cases carry with
  | false =>
    simp only [Bool.toNat_false, Nat.mul_zero, Nat.add_zero] at hv
    subst hv
    refine ⟨by simp [U256.le_iff], fun hle => ?_⟩
    rw [hs, show r.toNat + 2 ^ 256 - d.toNat = r.toNat - d.toNat + 2 ^ 256 by omega,
      Nat.add_mod_right, Nat.mod_eq_of_lt (by omega)]
  | true =>
    simp only [Bool.toNat_true, Nat.mul_one] at hv
    refine ⟨by simp; omega, fun _ => ?_⟩
    rw [hs, Nat.mod_eq_of_lt (by omega)]
    omega

/-- **One division step keeps the invariant.** -/
theorem divisionStep_inv {d : U256} {b : Nat} {s : U256 × U256} {Q : Nat} (hb : b < 256)
    (hinv : DivisionInv d.toNat (b + 1) s Q) :
    ∃ Q', DivisionInv d.toNat b (divisionStep d s b) Q' := by
  obtain ⟨hquot, haligned, htotal, hlt⟩ := hinv
  have hval := shift_value s.1 b (by omega)
  rw [if_neg (show b ≠ 256 by omega), if_neg (show b ≠ 256 by omega), Nat.add_zero] at hval
  obtain ⟨htest, hsub⟩ := subtract_shifted (d := d) hval (by omega)
  have hsplit : Q * d.toNat + 2 * s.1.toNat * 2 ^ b = 2 ^ 256 := by
    rw [← htotal, pow_succ]
    ring
  unfold divisionStep
  simp only [if_neg (show b ≠ 256 by omega), htest, decide_eq_true_eq, dif_pos hb]
  by_cases hge : d.toNat ≤ 2 * s.1.toNat
  · rw [if_pos hge]
    have hq2 : 2 ^ (b + 1) ∣ s.2.toNat := by
      rw [hquot, Nat.dvd_mod_iff (pow_dvd_pow 2 (by omega))]
      exact haligned
    have hset := toNat_setQuotientBit hb hq2
    refine ⟨Q + 2 ^ b, ?_, ?_, ?_, ?_⟩
    · have hfit := (setQuotientBit s.2 b hb).toNat_lt
      rw [hset, hquot] at hfit
      rw [hset, hquot, Nat.add_mod, Nat.mod_eq_of_lt (a := 2 ^ b) (by omega),
        Nat.mod_eq_of_lt hfit]
    · exact Nat.dvd_add ((pow_dvd_pow 2 (Nat.le_succ b)).trans haligned) (Nat.dvd_refl _)
    · rw [hsub hge, ← hsplit]
      obtain ⟨e, he⟩ := Nat.le.dest hge
      rw [← he, Nat.add_sub_cancel_left]
      ring
    · rw [hsub hge]
      omega
  · rw [if_neg hge]
    have hlow : (shl1WithCarry s.1).1.toNat = 2 * s.1.toNat := by
      have hd := d.toNat_lt
      rcases hc : (shl1WithCarry s.1).2 with _ | _ <;> rw [hc] at hval <;>
        simp only [Bool.toNat_false, Bool.toNat_true] at hval <;> omega
    refine ⟨Q, hquot, (pow_dvd_pow 2 (Nat.le_succ b)).trans haligned, ?_, ?_⟩
    · rw [hlow, hsplit]
    · rw [hlow]
      omega

/-- The first step, which brings in the dividend's only bit. -/
theorem divisionStep_first {d r q : U256} (hd : 0 < d.toNat) (hr : r.toNat = 0)
    (hq : q.toNat = 0) : ∃ Q, DivisionInv d.toNat 256 (divisionStep d (r, q) 256) Q := by
  have hval := shift_value r 256 (fun _ => hr)
  rw [hr, if_pos rfl, if_pos rfl] at hval
  obtain ⟨htest, hsub⟩ := subtract_shifted (d := d) hval (by omega)
  unfold divisionStep
  simp only [if_true, htest, decide_eq_true_eq, lt_irrefl, dif_neg, not_false_eq_true]
  by_cases hge : d.toNat ≤ 1
  · rw [if_pos hge]
    refine ⟨2 ^ 256, ?_, Nat.dvd_refl _, ?_, ?_⟩
    · rw [hq, Nat.mod_self]
    · rw [hsub hge, show d.toNat = 1 by omega]
      omega
    · rw [hsub hge]
      omega
  · rw [if_neg hge]
    refine ⟨0, ?_, Nat.dvd_zero _, ?_, ?_⟩
    · rw [hq, Nat.zero_mod]
    · dsimp only
      omega
    · dsimp only
      omega

/-- The next `j` steps. -/
theorem division_inv {d : U256} : ∀ (j n : Nat) (s : U256 × U256) (Q : Nat), j ≤ n → n ≤ 256 →
    DivisionInv d.toNat n s Q →
    ∃ Q', DivisionInv d.toNat (n - j)
      (((List.range n).reverse.take j).foldl (divisionStep d) s) Q' := by
  intro j
  induction j with
  | zero => exact fun n s Q _ _ h => ⟨Q, h⟩
  | succ j ih =>
    intro n s Q hj hn h
    obtain ⟨m, rfl⟩ : ∃ m, n = m + 1 := ⟨n - 1, by omega⟩
    obtain ⟨Q', h'⟩ := divisionStep_inv (by omega) h
    rw [List.range_succ, List.reverse_append, List.reverse_singleton, List.singleton_append,
      List.take_succ_cons, List.foldl_cons, Nat.add_sub_add_right]
    exact ih m _ Q' (by omega) (by omega) h'

/-- **The remainder stays below the divisor**, after every step of the loop. -/
theorem remainder_lt {d : U256} (hd : 0 < d.toNat) (k : Nat) :
    (((List.range 257).reverse.take k).foldl (divisionStep d) (U256.ZERO, U256.ZERO)).1.toNat <
      d.toNat := by
  cases k with
  | zero =>
    rw [List.take_zero, List.foldl_nil, U256.toNat_ZERO]
    exact hd
  | succ k =>
    obtain ⟨Q, h0⟩ := divisionStep_first hd U256.toNat_ZERO U256.toNat_ZERO
    rw [List.range_succ, List.reverse_append, List.reverse_singleton, List.singleton_append,
      List.take_succ_cons, List.foldl_cons]
    rcases Nat.le_total k 256 with hk | hk
    · obtain ⟨Q', h'⟩ := division_inv k 256 _ Q hk (Nat.le_refl _) h0
      exact h'.remainder_lt
    · obtain ⟨Q', h'⟩ := division_inv 256 256 _ Q (Nat.le_refl _) (Nat.le_refl _) h0
      rw [List.take_of_length_le (by simp)] at h'
      rw [List.take_of_length_le (by simpa using hk)]
      exact h'.remainder_lt

/-- The invariant at the end says what the quotient is. -/
theorem DivisionInv.quotient_eq {d : Nat} {s : U256 × U256} {Q : Nat}
    (h : DivisionInv d 0 s Q) : s.2.toNat = 2 ^ 256 / d % 2 ^ 256 := by
  obtain ⟨hquot, _, htotal, hlt⟩ := h
  rw [pow_zero, Nat.mul_one] at htotal
  rw [hquot, ← htotal, Nat.add_comm, Nat.add_mul_div_right _ _ (by omega),
    Nat.div_eq_of_lt hlt, Nat.zero_add]

/-- **The division is exact**, in 256 bits. -/
theorem toNat_divide {d : U256} (hd : 0 < d.toNat) :
    (divide d).toNat = 2 ^ 256 / d.toNat % 2 ^ 256 := by
  obtain ⟨Q, h0⟩ := divisionStep_first hd U256.toNat_ZERO U256.toNat_ZERO
  obtain ⟨Q', h'⟩ := division_inv 256 256 _ Q (Nat.le_refl _) (Nat.le_refl _) h0
  rw [List.take_of_length_le (by simp)] at h'
  unfold divide
  rw [List.range_succ, List.reverse_append, List.reverse_singleton, List.singleton_append,
    List.foldl_cons, h'.quotient_eq]

theorem toNat_workFromTarget {t : Target} {w : ChainWork} (h : workFromTarget t = .ok w) :
    w.toNat = 2 ^ 256 / (t.toNat + 1) % 2 ^ 256 := by
  unfold workFromTarget at h
  cases hd : incrementTarget t with
  | error e => rw [hd] at h; cases h
  | ok d =>
    have hdv := incrementTarget_ok hd
    rw [hd] at h
    have hw : divide d = w := Except.ok.inj h
    rw [← hw, toNat_divide (by omega), hdv]

/-- The division is refused for the saturated target only. -/
theorem workFromTarget_error_iff {t : Target} :
    workFromTarget t = .error .targetTooLarge ↔ t.toNat + 1 = 2 ^ 256 := by
  rw [← incrementTarget_error]
  unfold workFromTarget
  cases hd : incrementTarget t with
  | error e => rfl
  | ok d => constructor <;> intro h <;> cases h

/-- No target at or below the proof-of-work limit is refused. -/
theorem workFromTarget_ok {t : Target} (h : t ≤ GENESIS_TARGET) :
    ∃ w, workFromTarget t = .ok w := by
  cases hw : workFromTarget t with
  | ok w => exact ⟨w, rfl⟩
  | error e =>
    cases e
    have hmax := workFromTarget_error_iff.1 hw
    have hle := U256.le_iff.1 h
    rw [GENESIS_TARGET_toNat] at hle
    omega

/-- **The work of a target is exact.**  The saturated target is refused; every other but zero has
work `⌊2^256 / (target + 1)⌋`; and the remainder is below the divisor after every iteration, those
included whose shift carries out of 256 bits. -/
theorem workFromTarget_exact :
    (∀ t : Target, workFromTarget t = .error .targetTooLarge ↔ t.toNat = 2 ^ 256 - 1) ∧
    (∀ t : Target, 1 ≤ t.toNat → t.toNat ≤ 2 ^ 256 - 2 →
      ∃ w, workFromTarget t = .ok w ∧ w.toNat = 2 ^ 256 / (t.toNat + 1)) ∧
    (∀ (t divisor : Target) (k : Nat), incrementTarget t = .ok divisor →
      (((List.range 257).reverse.take k).foldl (divisionStep divisor)
        (U256.ZERO, U256.ZERO)).1.toNat < divisor.toNat) := by
  refine ⟨fun t => ?_, fun t hpos hmax => ?_, fun t divisor k hdivisor => ?_⟩
  · rw [workFromTarget_error_iff]
    omega
  · cases hw : workFromTarget t with
    | error e =>
      cases e
      have hsaturated := workFromTarget_error_iff.1 hw
      omega
    | ok w =>
      refine ⟨w, rfl, ?_⟩
      have hfits : 2 ^ 256 / (t.toNat + 1) < 2 ^ 256 :=
        Nat.div_lt_self (by positivity) (by omega)
      rw [toNat_workFromTarget hw, Nat.mod_eq_of_lt hfits]
  · have hvalue := incrementTarget_ok hdivisor
    exact remainder_lt (by omega) k

/-- The proof-of-work limit, and the divisor of the largest target that has work. -/
theorem workFromTarget_exact_limit :
    (∃ w, workFromTarget GENESIS_TARGET = .ok w ∧ w.toNat = 0x100010001) ∧
    ∀ k, (((List.range 257).reverse.take k).foldl
        (divisionStep ⟨#v[0xffffffffffffffff, 0xffffffffffffffff, 0xffffffffffffffff,
          0xffffffffffffffff]⟩) (U256.ZERO, U256.ZERO)).1.toNat < 2 ^ 256 - 1 := by
  obtain ⟨-, hexact, hremainder⟩ := workFromTarget_exact
  constructor
  · obtain ⟨w, hw, hvalue⟩ := hexact GENESIS_TARGET (by rw [GENESIS_TARGET_toNat]; norm_num)
      (by rw [GENESIS_TARGET_toNat]; norm_num)
    refine ⟨w, hw, ?_⟩
    rw [hvalue, GENESIS_TARGET_toNat]
    norm_num
  · intro k
    exact hremainder ⟨#v[0xfffffffffffffffe, 0xffffffffffffffff, 0xffffffffffffffff,
      0xffffffffffffffff]⟩ _ k (by decide)

end Zkpow
