import Mathlib.Tactic
import Mathlib.Order.Bounds.Basic

/-!
# Rounding down to a short mantissa

Numbers `m * B ^ e` with `m < M`.  Cutting off `k` low digits of `x` rounds it down to such a
number, and to the greatest one, as long as the digits kept fit the mantissa and one digit more
would not (`isGreatest_cut`).  A mantissa between `L` and `L * B` fixes how many digits are cut
off (`scale_unique`).
-/

set_option autoImplicit false

namespace Floating

/-! ## The greatest value below -/

section Greatest

variable {α : Type} [Preorder α] {P : α → Prop} {x y r s : α}

/-- Rounding down to the values with a property is monotone. -/
theorem greatest_mono (hr : IsGreatest {n | P n ∧ n ≤ x} r)
    (hs : IsGreatest {n | P n ∧ n ≤ y} s) (hxy : x ≤ y) : r ≤ s :=
  hs.2 ⟨hr.1.1, hr.1.2.trans hxy⟩

end Greatest

/-! ## Short mantissas -/

/-- The numbers with a mantissa below `M`. -/
def Representable (B M n : Nat) : Prop := ∃ m e, m < M ∧ n = m * B ^ e

/-- What is left of `x` without its low `k` digits. -/
def cut (B k x : Nat) : Nat := x / B ^ k * B ^ k

variable {B M L x k : Nat}

theorem cut_le : cut B k x ≤ x := Nat.div_mul_le_self x (B ^ k)

theorem le_cut_of_dvd {n : Nat} (hB : 0 < B) (hdvd : B ^ k ∣ n) (hle : n ≤ x) :
    n ≤ cut B k x := by
  obtain ⟨c, rfl⟩ := hdvd
  have hc : c ≤ x / B ^ k := by
    rw [Nat.le_div_iff_mul_le (pow_pos hB k), Nat.mul_comm]
    exact hle
  rw [cut, Nat.mul_comm]
  exact Nat.mul_le_mul_right _ hc

/-- **Cutting off low digits rounds down**: to the greatest number below `x` that has a mantissa
below `M`, when the digits kept do and are too many after one more. -/
theorem isGreatest_cut (hB : 0 < B) (hfit : x / B ^ k < M) (hnormal : k = 0 ∨ M ≤ x / B ^ k * B) :
    IsGreatest {n | Representable B M n ∧ n ≤ x} (cut B k x) := by
  refine ⟨⟨⟨_, k, hfit, rfl⟩, cut_le⟩, ?_⟩
  rintro n ⟨⟨m, e, hm, rfl⟩, hle⟩
  rcases Nat.lt_or_ge e k with he | he
  · have hM : M ≤ x / B ^ k * B := hnormal.resolve_left (by omega)
    obtain ⟨j, rfl⟩ : ∃ j, k = j + 1 := ⟨k - 1, by omega⟩
    calc m * B ^ e ≤ x / B ^ (j + 1) * B * B ^ e := Nat.mul_le_mul_right _ (by omega)
      _ ≤ x / B ^ (j + 1) * B * B ^ j :=
        Nat.mul_le_mul_left _ (Nat.pow_le_pow_right hB (by omega))
      _ = cut B (j + 1) x := by rw [cut, pow_succ]; ring
  · exact le_cut_of_dvd hB (Dvd.dvd.mul_left (pow_dvd_pow B he) m) hle

/-- **The error of rounding down** is at most one part in `N`, when a mantissa has a digit more than
`N` needs. -/
theorem sub_greatest_le {N g : Nat} (hB : 1 < B) (hN : 0 < N) (hM : M = N * B)
    (hg : IsGreatest {n | Representable B M n ∧ n ≤ x} g) : N * (x - g) ≤ x := by
  rcases Nat.lt_or_ge x M with hx | hx
  · have hxg : x ≤ g := hg.2 ⟨⟨x, 0, hx, by rw [pow_zero, Nat.mul_one]⟩, Nat.le_refl x⟩
    rw [Nat.sub_eq_zero_of_le hxg]
    exact Nat.zero_le x
  · -- the exponent that leaves a mantissa between `N` and `M`
    have hquot : x / N ≠ 0 := by
      have := Nat.div_pos ((Nat.le_mul_of_pos_right N (by omega)).trans (hM ▸ hx)) hN
      omega
    have hlow : N * B ^ Nat.log B (x / N) ≤ x := by
      rw [Nat.mul_comm, ← Nat.le_div_iff_mul_le hN]
      exact Nat.pow_log_le_self B hquot
    have hhigh : x / B ^ Nat.log B (x / N) < M := by
      rw [Nat.div_lt_iff_lt_mul (by positivity), hM, Nat.mul_assoc, ← pow_succ', Nat.mul_comm]
      exact (Nat.div_lt_iff_lt_mul hN).1 (Nat.lt_pow_succ_log_self hB _)
    have hcut : cut B (Nat.log B (x / N)) x ≤ g := hg.2 ⟨⟨_, _, hhigh, rfl⟩, cut_le⟩
    have hrest : x - cut B (Nat.log B (x / N)) x ≤ B ^ Nat.log B (x / N) := by
      rw [cut, Nat.mul_comm, ← Nat.mod_eq_sub_mul_div]
      exact (Nat.mod_lt x (by positivity)).le
    calc N * (x - g) ≤ N * B ^ Nat.log B (x / N) := Nat.mul_le_mul_left N (by omega)
      _ ≤ x := hlow

/-- Only one number of digits cut off leaves a normal mantissa. -/
theorem scale_unique {s s' : Nat} (hB : 0 < B) (hs : L ≤ x / B ^ s) (hlt : x / B ^ s < L * B)
    (hs' : L ≤ x / B ^ s') (hlt' : x / B ^ s' < L * B) : s = s' := by
  have hle : ∀ {a b : Nat}, x / B ^ a < L * B → L ≤ x / B ^ b → b ≤ a := by
    intro a b ha hb
    by_contra hab
    obtain ⟨j, rfl⟩ : ∃ j, b = a + (j + 1) := ⟨b - a - 1, by omega⟩
    rw [pow_add, ← Nat.div_div_eq_div_mul] at hb
    have hsmall : x / B ^ a / B ^ (j + 1) ≤ x / B ^ a / B :=
      Nat.div_le_div_left (Nat.le_self_pow (Nat.succ_ne_zero j) B) hB
    have hdiv : x / B ^ a / B < L := Nat.div_lt_of_lt_mul (by rwa [Nat.mul_comm])
    omega
  exact Nat.le_antisymm (hle hlt' hs) (hle hlt hs')

end Floating
