import Mathlib.Tactic
import Mathlib.Data.Nat.Digits.Lemmas

/-!
# Fixed-width positional arithmetic

Loops over little-endian digit lists in base `B`, as multi-precision code writes them (a carry,
a borrow or a remainder handed from digit to digit, the last one dropped or returned), and what
each of them computes on the number `Nat.ofDigits B` reads from the digits:

* `addDigits_value`, `mulDigits_value`, `shlDigits_value` — sums, products by a digit, doubling;
* `subDigits_value` — differences, with the borrow out;
* `divDigits_value` — quotient and remainder by a small divisor;
* `compareDigits_eq` — comparison from the most significant digit down;
* `incrementDigits_some`, `incrementDigits_none` — adding one, unless every digit is saturated.
-/

set_option autoImplicit false

namespace Limbs

open Nat (ofDigits)

variable {B : Nat}

/-- Every digit is below the base. -/
def Digits (B : Nat) (xs : List Nat) : Prop := ∀ x ∈ xs, x < B

theorem Digits.nil : Digits B [] := fun x h => by cases h

theorem Digits.cons {x : Nat} {xs : List Nat} (hx : x < B) (hxs : Digits B xs) :
    Digits B (x :: xs) := by
  intro y hy
  rcases List.mem_cons.1 hy with rfl | hy
  · exact hx
  · exact hxs y hy

theorem digits_cons {x : Nat} {xs : List Nat} : Digits B (x :: xs) ↔ x < B ∧ Digits B xs :=
  ⟨fun h => ⟨h x (by simp), fun y hy => h y (by simp [hy])⟩, fun h => Digits.cons h.1 h.2⟩

theorem Digits.value_lt {xs : List Nat} (h : Digits B xs) : ofDigits B xs < B ^ xs.length := by
  induction xs with
  | nil => simp
  | cons x xs ih =>
    obtain ⟨hx, hxs⟩ := digits_cons.1 h
    have hv := ih hxs
    rw [Nat.ofDigits_cons, List.length_cons, pow_succ]
    have : B * (ofDigits B xs + 1) ≤ B * B ^ xs.length := Nat.mul_le_mul_left B hv
    calc x + B * ofDigits B xs < B + B * ofDigits B xs := by omega
      _ = B * (ofDigits B xs + 1) := by ring
      _ ≤ B ^ xs.length * B := by rw [Nat.mul_comm (B ^ xs.length)]; exact this

/-- Digit lists of one length are determined by the number they spell. -/
theorem Digits.value_inj {xs ys : List Nat} (hx : Digits B xs) (hy : Digits B ys)
    (hlen : xs.length = ys.length) (h : ofDigits B xs = ofDigits B ys) : xs = ys := by
  induction xs generalizing ys with
  | nil => cases ys with
    | nil => rfl
    | cons y ys => simp at hlen
  | cons x xs ih =>
    cases ys with
    | nil => simp at hlen
    | cons y ys =>
      obtain ⟨hx0, hx1⟩ := digits_cons.1 hx
      obtain ⟨hy0, hy1⟩ := digits_cons.1 hy
      rw [Nat.ofDigits_cons, Nat.ofDigits_cons] at h
      have hm := congrArg (· % B) h
      have hd := congrArg (· / B) h
      simp only [Nat.add_mul_mod_self_left, Nat.mod_eq_of_lt hx0, Nat.mod_eq_of_lt hy0] at hm
      have hB : 0 < B := by omega
      simp only [Nat.add_mul_div_left _ _ hB, Nat.div_eq_of_lt hx0, Nat.div_eq_of_lt hy0,
        Nat.zero_add] at hd
      rw [hm, ih hx1 hy1 (by simpa using hlen) hd]

/-! ## Addition -/

/-- `sum = x + y + carry`, digit `sum mod B`, carry `sum / B`. -/
def addDigits (B : Nat) : List Nat → List Nat → Nat → List Nat × Nat
  | x :: xs, y :: ys, carry =>
    let sum := x + y + carry
    let rest := addDigits B xs ys (sum / B)
    (sum % B :: rest.1, rest.2)
  | _, _, carry => ([], carry)

theorem addDigits_digits (hB : 0 < B) : ∀ (xs ys : List Nat) (c : Nat),
    Digits B (addDigits B xs ys c).1 := by
  intro xs
  induction xs with
  | nil => exact fun _ _ => Digits.nil
  | cons x xs ih =>
    intro ys c
    cases ys with
    | nil => exact Digits.nil
    | cons y ys => exact .cons (Nat.mod_lt _ hB) (ih ys _)

theorem length_addDigits : ∀ {xs ys : List Nat} {c : Nat}, xs.length = ys.length →
    (addDigits B xs ys c).1.length = xs.length := by
  intro xs
  induction xs with
  | nil => exact fun _ => rfl
  | cons x xs ih =>
    intro ys c h
    cases ys with
    | nil => cases h
    | cons y ys =>
      simp only [addDigits, List.length_cons]
      rw [ih (by simpa using h)]

theorem addDigits_value : ∀ {xs ys : List Nat} {c : Nat}, xs.length = ys.length →
    ofDigits B (addDigits B xs ys c).1 + B ^ xs.length * (addDigits B xs ys c).2 =
      ofDigits B xs + ofDigits B ys + c := by
  intro xs
  induction xs with
  | nil =>
    intro ys c h
    obtain rfl := List.length_eq_zero_iff.1 h.symm
    simp [addDigits]
  | cons x xs ih =>
    intro ys c h
    cases ys with
    | nil => cases h
    | cons y ys =>
      have hlen : xs.length = ys.length := by simpa using h
      have ih := ih (c := (x + y + c) / B) hlen
      simp only [addDigits, Nat.ofDigits_cons, List.length_cons]
      have hm := Nat.mod_add_div (x + y + c) B
      calc (x + y + c) % B + B * ofDigits B (addDigits B xs ys ((x + y + c) / B)).1 +
            B ^ (xs.length + 1) * (addDigits B xs ys ((x + y + c) / B)).2
          = (x + y + c) % B + B * (ofDigits B (addDigits B xs ys ((x + y + c) / B)).1 +
            B ^ xs.length * (addDigits B xs ys ((x + y + c) / B)).2) := by ring
        _ = (x + y + c) % B + B * ((x + y + c) / B) + B * ofDigits B xs + B * ofDigits B ys := by
            rw [ih]; ring
        _ = x + B * ofDigits B xs + (y + B * ofDigits B ys) + c := by rw [hm]; ring

/-- Dropping the last carry reduces modulo the size of the word. -/
theorem value_eq_mod {xs : List Nat} {N c : Nat} (h : Digits B xs)
    (hv : ofDigits B xs + B ^ xs.length * c = N) : ofDigits B xs = N % B ^ xs.length := by
  rw [← hv, Nat.add_mul_mod_self_left, Nat.mod_eq_of_lt h.value_lt]

/-! ## Multiplication by one digit -/

/-- `product = x * k + carry`, digit `product mod B`, carry `product / B`. -/
def mulDigits (B k : Nat) : List Nat → Nat → List Nat × Nat
  | x :: xs, carry =>
    let product := x * k + carry
    let rest := mulDigits B k xs (product / B)
    (product % B :: rest.1, rest.2)
  | [], carry => ([], carry)

theorem mulDigits_digits {k : Nat} (hB : 0 < B) : ∀ (xs : List Nat) (c : Nat),
    Digits B (mulDigits B k xs c).1 := by
  intro xs
  induction xs with
  | nil => exact fun _ => Digits.nil
  | cons x xs ih => exact fun c => .cons (Nat.mod_lt _ hB) (ih _)

theorem length_mulDigits {k : Nat} : ∀ (xs : List Nat) (c : Nat),
    (mulDigits B k xs c).1.length = xs.length := by
  intro xs
  induction xs with
  | nil => exact fun _ => rfl
  | cons x xs ih =>
    intro c
    simp only [mulDigits, List.length_cons, ih]

theorem mulDigits_value {k : Nat} : ∀ (xs : List Nat) (c : Nat),
    ofDigits B (mulDigits B k xs c).1 + B ^ xs.length * (mulDigits B k xs c).2 =
      ofDigits B xs * k + c := by
  intro xs
  induction xs with
  | nil => simp [mulDigits]
  | cons x xs ih =>
    intro c
    have ih := ih ((x * k + c) / B)
    simp only [mulDigits, Nat.ofDigits_cons, List.length_cons]
    have hm := Nat.mod_add_div (x * k + c) B
    calc (x * k + c) % B + B * ofDigits B (mulDigits B k xs ((x * k + c) / B)).1 +
          B ^ (xs.length + 1) * (mulDigits B k xs ((x * k + c) / B)).2
        = (x * k + c) % B + B * (ofDigits B (mulDigits B k xs ((x * k + c) / B)).1 +
          B ^ xs.length * (mulDigits B k xs ((x * k + c) / B)).2) := by ring
      _ = (x * k + c) % B + B * ((x * k + c) / B) + B * ofDigits B xs * k := by rw [ih]; ring
      _ = (x + B * ofDigits B xs) * k + c := by rw [hm]; ring

/-! ## Doubling -/

/-- One bit to the left: digit `(2x mod B) | carry`, carry the bit shifted out. -/
def shlDigits (B : Nat) : List Nat → Nat → List Nat × Nat
  | x :: xs, carry =>
    let rest := shlDigits B xs (2 * x / B)
    ((2 * x % B ||| carry) :: rest.1, rest.2)
  | [], carry => ([], carry)

theorem shl_digit {x c : Nat} (hB : 2 ∣ B) (hc : c ≤ 1) : (2 * x % B ||| c) = 2 * x % B + c := by
  obtain ⟨b, rfl⟩ := hB
  rw [Nat.mul_mod_mul_left]
  have := Nat.two_pow_add_eq_or_of_lt (i := 1) (b := c) (by omega) (x % b)
  simp only [pow_one] at this
  omega

theorem shl_carry_le {x : Nat} (hx : x < B) : 2 * x / B ≤ 1 := by
  have h : 2 * x / B < 2 := Nat.div_lt_of_lt_mul (by omega)
  omega

theorem shl_digit_lt {x c : Nat} (hB : 2 ∣ B) (hx : x < B) (hc : c ≤ 1) :
    (2 * x % B ||| c) < B := by
  rw [shl_digit hB hc]
  obtain ⟨b, rfl⟩ := hB
  rw [Nat.mul_mod_mul_left]
  have := Nat.mod_lt x (show 0 < b by omega)
  omega

theorem shlDigits_digits (hB : 2 ∣ B) : ∀ {xs : List Nat} {c : Nat}, Digits B xs → c ≤ 1 →
    Digits B (shlDigits B xs c).1 := by
  intro xs
  induction xs with
  | nil => exact fun _ _ => Digits.nil
  | cons x xs ih =>
    intro c h hc
    obtain ⟨hx, hxs⟩ := digits_cons.1 h
    exact .cons (shl_digit_lt hB hx hc) (ih hxs (shl_carry_le hx))

theorem length_shlDigits : ∀ (xs : List Nat) (c : Nat),
    (shlDigits B xs c).1.length = xs.length := by
  intro xs
  induction xs with
  | nil => exact fun _ => rfl
  | cons x xs ih =>
    intro c
    simp only [shlDigits, List.length_cons, ih]

theorem shlDigits_value (hB : 2 ∣ B) : ∀ {xs : List Nat} {c : Nat}, Digits B xs → c ≤ 1 →
    ofDigits B (shlDigits B xs c).1 + B ^ xs.length * (shlDigits B xs c).2 =
      2 * ofDigits B xs + c := by
  intro xs
  induction xs with
  | nil => simp [shlDigits]
  | cons x xs ih =>
    intro c h hc
    obtain ⟨hx, hxs⟩ := digits_cons.1 h
    have ih := ih hxs (shl_carry_le hx)
    simp only [shlDigits, Nat.ofDigits_cons, List.length_cons, shl_digit hB hc]
    have hm := Nat.mod_add_div (2 * x) B
    calc 2 * x % B + c + B * ofDigits B (shlDigits B xs (2 * x / B)).1 +
          B ^ (xs.length + 1) * (shlDigits B xs (2 * x / B)).2
        = 2 * x % B + c + B * (ofDigits B (shlDigits B xs (2 * x / B)).1 +
          B ^ xs.length * (shlDigits B xs (2 * x / B)).2) := by ring
      _ = 2 * x % B + B * (2 * x / B) + c + B * (2 * ofDigits B xs) := by rw [ih]; ring
      _ = 2 * (x + B * ofDigits B xs) + c := by rw [hm]; ring

theorem shlDigits_carry_le {xs : List Nat} {c : Nat} (h : Digits B xs) (hc : c ≤ 1) :
    (shlDigits B xs c).2 ≤ 1 := by
  induction xs generalizing c with
  | nil => exact hc
  | cons x xs ih =>
    obtain ⟨hx, hxs⟩ := digits_cons.1 h
    exact ih hxs (shl_carry_le hx)

/-! ## Subtraction -/

/-- Subtract the digit, then the borrow, each wrapping; borrow out if either wrapped. -/
def subDigits (B : Nat) : List Nat → List Nat → Bool → List Nat × Bool
  | x :: xs, y :: ys, borrow =>
    let a := (x + B - y) % B
    let d := (a + B - borrow.toNat) % B
    let rest := subDigits B xs ys (decide (x < y) || decide (a < borrow.toNat))
    (d :: rest.1, rest.2)
  | _, _, borrow => ([], borrow)

theorem subDigits_digits (hB : 0 < B) : ∀ (xs ys : List Nat) (b : Bool),
    Digits B (subDigits B xs ys b).1 := by
  intro xs
  induction xs with
  | nil => exact fun _ _ => Digits.nil
  | cons x xs ih =>
    intro ys b
    cases ys with
    | nil => exact Digits.nil
    | cons y ys => exact .cons (Nat.mod_lt _ hB) (ih ys _)

theorem length_subDigits : ∀ {xs ys : List Nat} {b : Bool}, xs.length = ys.length →
    (subDigits B xs ys b).1.length = xs.length := by
  intro xs
  induction xs with
  | nil => exact fun _ => rfl
  | cons x xs ih =>
    intro ys b h
    cases ys with
    | nil => cases h
    | cons y ys =>
      simp only [subDigits, List.length_cons]
      rw [ih (by simpa using h)]

/-- One digit of a subtraction: what is written, less what is borrowed, is the difference. -/
theorem sub_digit {x y : Nat} {b : Bool} (hx : x < B) (hy : y < B) :
    ((x + B - y) % B + B - b.toNat) % B + y + b.toNat =
      x + B * (decide (x < y) || decide ((x + B - y) % B < b.toNat)).toNat := by
  have hb : b.toNat ≤ 1 := Bool.toNat_le b
  by_cases hxy : x < y
  · have ha : (x + B - y) % B = x + B - y := Nat.mod_eq_of_lt (by omega)
    have hd : (x + B - y + B - b.toNat) % B = x + B - y - b.toNat := by
      rw [show x + B - y + B - b.toNat = x + B - y - b.toNat + B by omega, Nat.add_mod_right]
      exact Nat.mod_eq_of_lt (by omega)
    rw [ha, hd]
    simp [hxy]
    omega
  · have ha : (x + B - y) % B = x - y := by
      rw [show x + B - y = x - y + B by omega, Nat.add_mod_right]
      exact Nat.mod_eq_of_lt (by omega)
    rw [ha]
    by_cases hc : x - y < b.toNat
    · have hd : (x - y + B - b.toNat) % B = x - y + B - b.toNat := Nat.mod_eq_of_lt (by omega)
      rw [hd]
      simp [hxy, hc]
      omega
    · have hd : (x - y + B - b.toNat) % B = x - y - b.toNat := by
        rw [show x - y + B - b.toNat = x - y - b.toNat + B by omega, Nat.add_mod_right]
        exact Nat.mod_eq_of_lt (by omega)
      rw [hd]
      simp [hxy, hc]
      omega

theorem subDigits_value : ∀ {xs ys : List Nat} {b : Bool}, xs.length = ys.length →
    Digits B xs → Digits B ys →
    ofDigits B (subDigits B xs ys b).1 + ofDigits B ys + b.toNat =
      ofDigits B xs + B ^ xs.length * (subDigits B xs ys b).2.toNat := by
  intro xs
  induction xs with
  | nil =>
    intro ys b h hx hy
    obtain rfl := List.length_eq_zero_iff.1 h.symm
    simp [subDigits]
  | cons x xs ih =>
    intro ys b h hx hy
    cases ys with
    | nil => cases h
    | cons y ys =>
      obtain ⟨hx0, hx1⟩ := digits_cons.1 hx
      obtain ⟨hy0, hy1⟩ := digits_cons.1 hy
      have hd := sub_digit (b := b) hx0 hy0
      simp only [subDigits, Nat.ofDigits_cons, List.length_cons]
      generalize hc : (decide (x < y) || decide ((x + B - y) % B < b.toNat)) = c at hd
      have ih := ih (b := c) (by simpa using h) hx1 hy1
      calc ((x + B - y) % B + B - b.toNat) % B + B * ofDigits B (subDigits B xs ys c).1 +
            (y + B * ofDigits B ys) + b.toNat
          = (((x + B - y) % B + B - b.toNat) % B + y + b.toNat) +
            B * (ofDigits B (subDigits B xs ys c).1 + ofDigits B ys) := by ring
        _ = x + B * (ofDigits B (subDigits B xs ys c).1 + ofDigits B ys + c.toNat) := by
            rw [hd]; ring
        _ = x + B * ofDigits B xs + B ^ (xs.length + 1) * (subDigits B xs ys c).2.toNat := by
            rw [ih]; ring

/-- The borrow out says that the subtrahend was larger. -/
theorem subDigits_borrow {xs ys : List Nat} (hB : 0 < B) (h : xs.length = ys.length)
    (hx : Digits B xs) (hy : Digits B ys) :
    (subDigits B xs ys false).2 = decide (ofDigits B xs < ofDigits B ys) := by
  have hv := subDigits_value (b := false) h hx hy
  have hd := (subDigits_digits hB xs ys false).value_lt
  rw [length_subDigits h] at hd
  cases hb : (subDigits B xs ys false).2 with
  | false =>
    rw [hb] at hv
    simp only [Bool.toNat_false, Nat.mul_zero, Nat.add_zero] at hv
    have : ¬ ofDigits B xs < ofDigits B ys := by omega
    simp [this]
  | true =>
    rw [hb] at hv
    simp only [Bool.toNat_false, Bool.toNat_true, Nat.mul_one, Nat.add_zero] at hv
    have : ofDigits B xs < ofDigits B ys := by omega
    simp [this]

/-! ## Division by a small divisor -/

/-- From the most significant digit down: `v = remainder * B + x`, digit `v / d` (kept to one
digit), remainder `v mod d`. -/
def divDigits (B d : Nat) : List Nat → List Nat × Nat
  | x :: xs =>
    let rest := divDigits B d xs
    let v := rest.2 * B + x
    (v / d % B :: rest.1, v % d)
  | [] => ([], 0)

theorem length_divDigits {d : Nat} (xs : List Nat) :
    (divDigits B d xs).1.length = xs.length := by
  induction xs with
  | nil => rfl
  | cons x xs ih => simp only [divDigits, List.length_cons, ih]

theorem divDigits_digits {d : Nat} (hB : 0 < B) (xs : List Nat) :
    Digits B (divDigits B d xs).1 := by
  induction xs with
  | nil => exact Digits.nil
  | cons x xs ih => exact .cons (Nat.mod_lt _ hB) ih

theorem divDigits_remainder_lt {d : Nat} (hd : 0 < d) (xs : List Nat) :
    (divDigits B d xs).2 < d := by
  cases xs with
  | nil => exact hd
  | cons x xs => exact Nat.mod_lt _ hd

/-- Each quotient digit fits: the remainder handed down is below the divisor. -/
theorem div_digit_lt {d r x : Nat} (hr : r < d) (hx : x < B) : (r * B + x) / d < B := by
  apply Nat.div_lt_of_lt_mul
  have : (r + 1) * B ≤ d * B := Nat.mul_le_mul_right B hr
  rw [Nat.add_mul] at this
  omega

theorem divDigits_value {d : Nat} (hd : 0 < d) {xs : List Nat} (h : Digits B xs) :
    ofDigits B (divDigits B d xs).1 * d + (divDigits B d xs).2 = ofDigits B xs := by
  induction xs with
  | nil => simp [divDigits]
  | cons x xs ih =>
    obtain ⟨hx, hxs⟩ := digits_cons.1 h
    have ih := ih hxs
    have hfit := div_digit_lt (divDigits_remainder_lt (B := B) hd xs) hx
    simp only [divDigits, Nat.ofDigits_cons, Nat.mod_eq_of_lt hfit]
    generalize divDigits B d xs = q at ih hfit ⊢
    have hm := Nat.div_add_mod (q.2 * B + x) d
    calc ((q.2 * B + x) / d + B * ofDigits B q.1) * d + (q.2 * B + x) % d
        = (d * ((q.2 * B + x) / d) + (q.2 * B + x) % d) + B * (ofDigits B q.1 * d) := by ring
      _ = x + B * (ofDigits B q.1 * d + q.2) := by rw [hm]; ring
      _ = x + B * ofDigits B xs := by rw [ih]

/-! ## Comparison -/

/-- The most significant differing digit decides. -/
def compareDigits : List Nat → List Nat → Ordering
  | x :: xs, y :: ys => (compareDigits xs ys).then (compare x y)
  | _, _ => .eq

theorem compareDigits_eq : ∀ {xs ys : List Nat}, xs.length = ys.length → Digits B xs →
    Digits B ys → compareDigits xs ys = compare (ofDigits B xs) (ofDigits B ys) := by
  intro xs
  induction xs with
  | nil =>
    intro ys h hx hy
    obtain rfl := List.length_eq_zero_iff.1 h.symm
    simp [compareDigits]
  | cons x xs ih =>
    intro ys h hx hy
    cases ys with
    | nil => cases h
    | cons y ys =>
      obtain ⟨hx0, hx1⟩ := digits_cons.1 hx
      obtain ⟨hy0, hy1⟩ := digits_cons.1 hy
      rw [compareDigits, ih (by simpa using h) hx1 hy1, Nat.ofDigits_cons,
        Nat.ofDigits_cons]
      rcases lt_trichotomy (ofDigits B xs) (ofDigits B ys) with hlt | heq | hgt
      · have hstep : B * (ofDigits B xs + 1) ≤ B * ofDigits B ys := Nat.mul_le_mul_left B hlt
        rw [Nat.mul_add] at hstep
        have hsum : x + B * ofDigits B xs < y + B * ofDigits B ys := by omega
        rw [compare_lt_iff_lt.2 hlt, compare_lt_iff_lt.2 hsum]
        rfl
      · rw [heq, compare_eq_iff_eq.2 rfl, Ordering.then]
        rcases lt_trichotomy x y with hlt | rfl | hgt
        · rw [compare_lt_iff_lt.2 hlt, compare_lt_iff_lt.2 (by omega : _ < _)]
        · rw [compare_eq_iff_eq.2 rfl, compare_eq_iff_eq.2 rfl]
        · rw [compare_gt_iff_gt.2 hgt, compare_gt_iff_gt.2 (by omega : _ > _)]
      · have hstep : B * (ofDigits B ys + 1) ≤ B * ofDigits B xs := Nat.mul_le_mul_left B hgt
        rw [Nat.mul_add] at hstep
        have hsum : x + B * ofDigits B xs > y + B * ofDigits B ys := by omega
        rw [compare_gt_iff_gt.2 hgt, compare_gt_iff_gt.2 hsum]
        rfl

/-! ## Increment -/

/-- Saturated digits roll over to zero; `none` when every digit is saturated. -/
def incrementDigits (B : Nat) : List Nat → Option (List Nat)
  | x :: xs => if x < B - 1 then some ((x + 1) :: xs) else (incrementDigits B xs).map (0 :: ·)
  | [] => none

theorem incrementDigits_some : ∀ {xs ys : List Nat}, Digits B xs →
    incrementDigits B xs = some ys →
    Digits B ys ∧ ys.length = xs.length ∧ ofDigits B ys = ofDigits B xs + 1 := by
  intro xs
  induction xs with
  | nil =>
    intro ys h hs
    cases hs
  | cons x xs ih =>
    intro ys h hs
    obtain ⟨hx, hxs⟩ := digits_cons.1 h
    unfold incrementDigits at hs
    split at hs
    · rename_i hlt
      cases hs
      exact ⟨.cons (by omega) hxs, rfl, by rw [Nat.ofDigits_cons, Nat.ofDigits_cons]; omega⟩
    · rename_i hsat
      obtain ⟨zs, hzs, rfl⟩ := Option.map_eq_some_iff.1 hs
      obtain ⟨hd, hl, hv⟩ := ih hxs hzs
      refine ⟨.cons (by omega) hd, by simp [hl], ?_⟩
      rw [Nat.ofDigits_cons, Nat.ofDigits_cons, hv, Nat.mul_add]
      omega

theorem incrementDigits_none {xs : List Nat} (h : Digits B xs) :
    incrementDigits B xs = none ↔ ofDigits B xs + 1 = B ^ xs.length := by
  induction xs with
  | nil => simp [incrementDigits]
  | cons x xs ih =>
    obtain ⟨hx, hxs⟩ := digits_cons.1 h
    have ih := ih hxs
    have hlt := hxs.value_lt
    have hstep : B * (ofDigits B xs + 1) ≤ B * B ^ xs.length := Nat.mul_le_mul_left B hlt
    unfold incrementDigits
    rw [Nat.ofDigits_cons, List.length_cons, pow_succ, Nat.mul_comm (B ^ xs.length)]
    rw [Nat.mul_add] at hstep
    split
    · rename_i hx1
      simp only [reduceCtorEq, false_iff]
      omega
    · rename_i hsat
      rw [Option.map_eq_none_iff, ih]
      constructor
      · intro he
        rw [← he, Nat.mul_add]
        omega
      · intro he
        have : B * (ofDigits B xs + 1) = B * B ^ xs.length := by rw [Nat.mul_add]; omega
        exact Nat.eq_of_mul_eq_mul_left (by omega) this

end Limbs
