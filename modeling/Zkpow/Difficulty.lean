import Mathlib.Tactic
import Mathlib.Data.Nat.Bitwise
import Zkpow.U256
import Zkpow.Lib.Floating

/-!
# Compact targets and the retarget rule

`target_to_bits`, `target_from_bits` and `calculate_next_target_required` of
`crates/core/src/lib.rs`, with the numbers they compute.

* `toNat_targetFromBits` — the decoder is `⌊m · 256^(s-3)⌋ mod 2^256`;
* `targetToBits_spec` — the encoder keeps the three leading bytes, or two of them behind a zero
  byte when the leading one has its high bit set;
* `isGreatest_targetFromBits` — the round trip rounds a target down to a 23-bit mantissa;
* `calculateNextTargetRequired_le` — no retarget exceeds the proof-of-work limit;
* `calculateNextTargetRequired_exact` — a retarget is the capped product, rounded down.
-/

set_option autoImplicit false

namespace Zkpow

open ByteCodec Limbs

/-! ## Compact encoding -/

/-- `while nbytes > 0 && bytes[nbytes - 1] == 0 { nbytes -= 1 }`, started at `nbytes`. -/
def significantBytes (bytes : Bytes) : Nat → Nat
  | 0 => 0
  | n + 1 => if bytes.getD n 0 = 0 then significantBytes bytes n else n + 1

/-- The three leading bytes of an `nbytes`-byte number, left-aligned. -/
def compactMantissa (bytes : Bytes) (nbytes : Nat) : UInt32 :=
  let byte (i : Nat) : UInt32 := (bytes.getD i 0).toUInt32
  if nbytes ≤ 3 then
    (List.range nbytes).reverse.foldl (fun (value : UInt32) i => value <<< 8 ||| byte i) 0 <<<
      UInt32.ofNat (8 * (3 - nbytes))
  else
    byte (nbytes - 1) <<< 16 ||| byte (nbytes - 2) <<< 8 ||| byte (nbytes - 3)

/-- Convert a full 256-bit target into compact `bits` encoding. -/
def targetToBits (target : Target) : CompactTarget :=
  let bytes := target.toLeBytes.toList
  let nbytes := significantBytes bytes 32
  if nbytes = 0 then 0 else
  let compact := compactMantissa bytes nbytes
  -- the high bit of the mantissa is a sign bit: move the mantissa down one byte
  if compact &&& 0x00800000 ≠ 0 then
    UInt32.ofNat (nbytes + 1) <<< 24 ||| (compact >>> 8 &&& 0x007fffff)
  else
    UInt32.ofNat nbytes <<< 24 ||| (compact &&& 0x007fffff)

/-- Expand compact `bits` into a normalized full 256-bit target. -/
def targetFromBits (compactTarget : CompactTarget) : Target :=
  let size := (compactTarget >>> 24).toNat
  let mantissa := compactTarget &&& 0x007fffff
  let out : Bytes := List.replicate 32 0
  let out :=
    if size ≤ 3 then
      put out 0 4 (Codec.u32.enc (mantissa >>> UInt32.ofNat (8 * (3 - size))))
    else
      let offset := size - 3
      let out := if offset < 32 then out.set offset (mantissa &&& 0xff).toUInt8 else out
      let out :=
        if offset + 1 < 32 then out.set (offset + 1) (mantissa >>> 8 &&& 0xff).toUInt8 else out
      if offset + 2 < 32 then out.set (offset + 2) (mantissa >>> 16 &&& 0xff).toUInt8 else out
  U256.fromLeBytes ((Codec.array 32).dec out)

/-! ### The decoder -/

theorem ofLE_replicate_zero (n : Nat) : ofLE (List.replicate n 0) = 0 := by
  induction n with
  | zero => rfl
  | succ n ih => simp [List.replicate_succ, ofLE, ih]

/-- Writing a byte where a zero stood. -/
theorem ofLE_set {l : Bytes} {i : Nat} {x : UInt8} (hi : i < l.length) (h0 : l.getD i 0 = 0) :
    ofLE (l.set i x) = ofLE l + 256 ^ i * x.toNat := by
  induction l generalizing i with
  | nil => simp at hi
  | cons y l ih =>
    cases i with
    | zero =>
      have hy : y = 0 := h0
      subst hy
      simp [ofLE, Nat.add_comm]
    | succ i =>
      have hi' : i < l.length := by simpa using hi
      rw [List.set_cons_succ, ofLE, ofLE, ih hi' h0, pow_succ]
      ring

/-- A guarded write into a 32-byte buffer: a byte past the end is dropped modulo `2^256`. -/
theorem ofLE_set_if {l : Bytes} {i : Nat} {x : UInt8} (hl : l.length = 32)
    (h0 : l.getD i 0 = 0) :
    ofLE (if i < 32 then l.set i x else l) = (ofLE l + 256 ^ i * x.toNat) % 2 ^ 256 := by
  have hlt := ofLE_lt (if i < 32 then l.set i x else l)
  have hlen : (if i < 32 then l.set i x else l).length = 32 := by split_ifs <;> simp [hl]
  rw [hlen, show 256 ^ 32 = 2 ^ 256 by decide] at hlt
  rw [← Nat.mod_eq_of_lt hlt]
  by_cases hi : i < 32
  · rw [if_pos hi, ofLE_set (by omega) h0]
  · have hdvd : 2 ^ 256 ∣ 256 ^ i := by
      rw [show 2 ^ 256 = 256 ^ 32 by decide]
      exact pow_dvd_pow 256 (by omega)
    obtain ⟨c, hc⟩ := hdvd
    rw [if_neg hi, hc, Nat.mul_assoc, Nat.add_mul_mod_self_left]

theorem length_set_if {l : Bytes} {i : Nat} {x : UInt8} (hl : l.length = 32) :
    (if i < 32 then l.set i x else l).length = 32 := by
  split_ifs <;> simp [hl]

theorem getD_set_if {l : Bytes} {i j : Nat} {x : UInt8} (hij : i ≠ j) :
    (if i < 32 then l.set i x else l).getD j 0 = l.getD j 0 := by
  split_ifs
  · simp [List.getD_eq_getElem?_getD, hij]
  · rfl

theorem toNat_and_7fffff (x : UInt32) : (x &&& 0x007fffff).toNat = x.toNat % 2 ^ 23 := by
  rw [UInt32.toNat_and]
  exact Nat.and_two_pow_sub_one_eq_mod x.toNat 23

theorem toNat_and_ff (x : UInt32) : (x &&& 0xff).toNat = x.toNat % 2 ^ 8 := by
  rw [UInt32.toNat_and]
  exact Nat.and_two_pow_sub_one_eq_mod x.toNat 8

theorem toNat_shiftRight {x : UInt32} {k : Nat} (hk : k < 32) :
    (x >>> UInt32.ofNat k).toNat = x.toNat / 2 ^ k := by
  rw [UInt32.toNat_shiftRight, Nat.shiftRight_eq_div_pow, UInt32.toNat_ofNat',
    Nat.mod_eq_of_lt (by omega : k < 2 ^ 32), Nat.mod_eq_of_lt hk]

theorem toNat_shiftLeft {x : UInt32} {k : Nat} (hk : k < 32) (hx : x.toNat * 2 ^ k < 2 ^ 32) :
    (x <<< UInt32.ofNat k).toNat = x.toNat * 2 ^ k := by
  rw [UInt32.toNat_shiftLeft, Nat.shiftLeft_eq, UInt32.toNat_ofNat',
    Nat.mod_eq_of_lt (by omega : k < 2 ^ 32), Nat.mod_eq_of_lt hk, Nat.mod_eq_of_lt hx]

/-- Byte `k` of a mantissa. -/
theorem toNat_mantissa_byte {m : UInt32} {k : Nat} (hk : k < 32) :
    (m >>> UInt32.ofNat k &&& 0xff).toUInt8.toNat = m.toNat / 2 ^ k % 256 := by
  rw [UInt32.toNat_toUInt8, toNat_and_ff, toNat_shiftRight hk]
  omega

theorem pow_256_three {n : Nat} (hn : n ≤ 3) : 256 ^ 3 = 256 ^ n * 2 ^ (8 * (3 - n)) := by
  rw [show (256 : Nat) = 2 ^ 8 from rfl, ← pow_mul, ← pow_mul, ← pow_add]
  refine congrArg (2 ^ ·) ?_
  omega

/-- **The decoder computes `⌊m · 256^(s-3)⌋ mod 2^256`.** -/
theorem toNat_targetFromBits (bits : CompactTarget) :
    (targetFromBits bits).toNat =
      bits.toNat % 2 ^ 23 * 256 ^ (bits.toNat / 2 ^ 24) / 256 ^ 3 % 2 ^ 256 := by
  have hsize : (bits >>> 24).toNat = bits.toNat / 2 ^ 24 := toNat_shiftRight (by decide)
  unfold targetFromBits
  simp only [hsize]
  generalize hs : bits.toNat / 2 ^ 24 = s
  have hm := toNat_and_7fffff bits
  generalize bits &&& 0x007fffff = mantissa at hm
  rw [← hm]
  have hlt : mantissa.toNat < 2 ^ 23 := by rw [hm]; exact Nat.mod_lt _ (by decide)
  clear hm
  by_cases h3 : s ≤ 3
  · rw [if_pos h3, U256.toNat_fromLeBytes, toList_array_dec (by simp [put]),
      put_start (by simp), ofLE_append]
    simp only [length_u32_enc, List.drop_replicate, Nat.reduceSub]
    rw [ofLE_replicate_zero, Nat.mul_zero, Nat.add_zero]
    show ofLE (natLE 4 _) = _
    rw [ofLE_natLE, toNat_shiftRight (by omega)]
    have hq : mantissa.toNat * 256 ^ s / 256 ^ 3 = mantissa.toNat / 2 ^ (8 * (3 - s)) := by
      rw [pow_256_three (by omega), Nat.mul_comm, Nat.mul_div_mul_left _ _ (by positivity)]
    rw [hq]
    have hle : mantissa.toNat / 2 ^ (8 * (3 - s)) ≤ mantissa.toNat := Nat.div_le_self _ _
    rw [Nat.mod_eq_of_lt (by norm_num; omega), Nat.mod_eq_of_lt (by omega)]
  · rw [if_neg h3, U256.toNat_fromLeBytes]
    obtain ⟨o, rfl⟩ : ∃ o, s = o + 3 := ⟨s - 3, by omega⟩
    rw [Nat.add_sub_cancel, toList_array_dec (by split_ifs <;> simp), pow_add, ← Nat.mul_assoc,
      Nat.mul_div_cancel _ (by decide)]
    have hb0 : (mantissa &&& 0xff).toUInt8.toNat = mantissa.toNat % 256 := by
      rw [UInt32.toNat_toUInt8, toNat_and_ff]; omega
    have hb1 : (mantissa >>> 8 &&& 0xff).toUInt8.toNat = mantissa.toNat / 2 ^ 8 % 256 :=
      toNat_mantissa_byte (by decide)
    have hb2 : (mantissa >>> 16 &&& 0xff).toUInt8.toNat = mantissa.toNat / 2 ^ 16 % 256 :=
      toNat_mantissa_byte (by decide)
    have hnil : (List.replicate 32 (0 : UInt8)).length = 32 := by simp
    have hget : ∀ j, (List.replicate 32 (0 : UInt8)).getD j 0 = 0 := fun j => by
      rw [List.getD_eq_getElem?_getD, List.getElem?_replicate]
      split_ifs <;> rfl
    rw [ofLE_set_if (length_set_if (length_set_if hnil)) (by
        rw [getD_set_if (by omega), getD_set_if (by omega), hget]),
      ofLE_set_if (length_set_if hnil) (by rw [getD_set_if (by omega), hget]),
      ofLE_set_if hnil (hget _), ofLE_replicate_zero, hb0, hb1, hb2]
    have hsum : mantissa.toNat % 256 + 256 * (mantissa.toNat / 2 ^ 8 % 256) +
        65536 * (mantissa.toNat / 2 ^ 16 % 256) = mantissa.toNat := by omega
    conv_rhs => rw [← hsum]
    simp only [Nat.mod_add_mod]
    refine congrArg (· % 2 ^ 256) ?_
    ring

/-! ### The encoder -/

theorem ofLE_take_succ (b : Bytes) (n : Nat) :
    ofLE (b.take (n + 1)) = ofLE (b.take n) + 256 ^ n * (b.getD n 0).toNat := by
  rw [List.getD_eq_getElem?_getD]
  by_cases hn : n < b.length
  · rw [List.take_succ_eq_append_getElem hn, ofLE_append, List.getElem?_eq_getElem hn,
      List.length_take_of_le (by omega)]
    simp [ofLE]
  · rw [List.getElem?_eq_none (by omega), List.take_of_length_le (by omega),
      List.take_of_length_le (by omega)]
    simp

theorem ofLE_take_lt (b : Bytes) (n : Nat) : ofLE (b.take n) < 256 ^ n := by
  refine lt_of_lt_of_le (ofLE_lt _) (Nat.pow_le_pow_right (by decide) ?_)
  simp

theorem significantBytes_le (b : Bytes) (n : Nat) : significantBytes b n ≤ n := by
  induction n with
  | zero => exact Nat.le_refl 0
  | succ n ih =>
    unfold significantBytes
    split
    · exact ih.trans (Nat.le_succ n)
    · exact Nat.le_refl _

/-- The bytes above the significant ones are zero. -/
theorem ofLE_take_significantBytes (b : Bytes) (n : Nat) :
    ofLE (b.take (significantBytes b n)) = ofLE (b.take n) := by
  induction n with
  | zero => rfl
  | succ n ih =>
    unfold significantBytes
    split
    · rename_i h0
      rw [ih, ofLE_take_succ, h0]
      simp
    · rfl

/-- The leading significant byte is not zero. -/
theorem le_ofLE_take_significantBytes (b : Bytes) : ∀ n, significantBytes b n ≠ 0 →
    256 ^ (significantBytes b n - 1) ≤ ofLE (b.take (significantBytes b n))
  | 0, h => absurd rfl h
  | n + 1, h => by
    unfold significantBytes at h ⊢
    split
    · rename_i h0
      rw [if_pos h0] at h
      exact le_ofLE_take_significantBytes b n h
    · rename_i h0
      have hpos : 1 ≤ (b.getD n 0).toNat := by
        rcases Nat.eq_zero_or_pos (b.getD n 0).toNat with hz | hp
        · exact absurd (UInt8.toNat_inj.1 hz) h0
        · exact hp
      rw [Nat.add_sub_cancel, ofLE_take_succ]
      calc 256 ^ n = 256 ^ n * 1 := (Nat.mul_one _).symm
        _ ≤ 256 ^ n * (b.getD n 0).toNat := Nat.mul_le_mul_left _ hpos
        _ ≤ _ := Nat.le_add_left _ _

/-- The three leading bytes of an `n`-byte number. -/
theorem ofLE_take_div (b : Bytes) {n : Nat} (hn : 3 ≤ n) :
    ofLE (b.take n) / 256 ^ (n - 3) = (b.getD (n - 1) 0).toNat * 65536 +
      (b.getD (n - 2) 0).toNat * 256 + (b.getD (n - 3) 0).toNat := by
  obtain ⟨k, rfl⟩ : ∃ k, n = k + 3 := ⟨n - 3, by omega⟩
  have hlt := ofLE_take_lt b k
  rw [ofLE_take_succ, ofLE_take_succ, ofLE_take_succ, Nat.add_sub_cancel,
    show k + 3 - 1 = k + 2 by omega, show k + 3 - 2 = k + 1 by omega]
  rw [show ofLE (b.take k) + 256 ^ k * (b.getD k 0).toNat +
      256 ^ (k + 1) * (b.getD (k + 1) 0).toNat + 256 ^ (k + 2) * (b.getD (k + 2) 0).toNat =
      ofLE (b.take k) + 256 ^ k * ((b.getD (k + 2) 0).toNat * 65536 +
        (b.getD (k + 1) 0).toNat * 256 + (b.getD k 0).toNat) by ring,
    Nat.add_mul_div_left _ _ (by positivity), Nat.div_eq_of_lt hlt, Nat.zero_add]

/-- `|` of disjoint bit ranges is a sum. -/
theorem toNat_or_low {x y : UInt32} {k : Nat} (hx : 2 ^ k ∣ x.toNat) (hy : y.toNat < 2 ^ k) :
    (x ||| y).toNat = x.toNat + y.toNat := by
  obtain ⟨a, ha⟩ := hx
  rw [UInt32.toNat_or, ha, Nat.two_pow_add_eq_or_of_lt hy]

theorem toNat_shl_or {x y : UInt32} {k : Nat} (hk : k < 32) (hx : x.toNat * 2 ^ k < 2 ^ 32)
    (hy : y.toNat < 2 ^ k) : (x <<< UInt32.ofNat k ||| y).toNat = x.toNat * 2 ^ k + y.toNat := by
  rw [toNat_or_low (k := k) (by rw [toNat_shiftLeft hk hx]; exact Nat.dvd_mul_left _ _) hy,
    toNat_shiftLeft hk hx]

/-- The sign bit is bit 23. -/
theorem and_800000_eq_zero (x : UInt32) : x &&& 0x00800000 = 0 ↔ x.toNat / 2 ^ 23 % 2 = 0 := by
  have hbit : (x &&& 0x00800000).toNat = (x.toNat.testBit 23).toNat * 2 ^ 23 := by
    rw [UInt32.toNat_and]
    exact Nat.and_two_pow x.toNat 23
  have hz : x &&& 0x00800000 = 0 ↔ (x &&& 0x00800000).toNat = 0 :=
    ⟨fun h => by rw [h]; rfl, fun h => UInt32.toNat_inj.1 h⟩
  rw [hz, hbit, Nat.testBit_eq_decide_div_mod_eq]
  rcases Nat.mod_two_eq_zero_or_one (x.toNat / 2 ^ 23) with h | h
  · rw [h]
    decide
  · rw [h]
    decide

/-- The sign-bit test of the encoder. -/
theorem and_800000_ne_zero {x : UInt32} (hx : x.toNat < 2 ^ 24) :
    x &&& 0x00800000 ≠ 0 ↔ 2 ^ 23 ≤ x.toNat := by
  rw [ne_eq, and_800000_eq_zero]
  omega

theorem targetToBits_zero {t : Target} (h : t.toNat = 0) : targetToBits t = 0 := by
  have ht : t = ⟨#v[0, 0, 0, 0]⟩ := U256.toNat_inj (by rw [h]; decide)
  subst ht
  decide

theorem byte_lt (b : Bytes) (i : Nat) : (b.getD i 0).toUInt32.toNat < 256 := by
  rw [UInt8.toNat_toUInt32]
  exact (b.getD i 0).toNat_lt

theorem toNat_fold_bytes (b : Bytes) : ∀ (n : Nat) (acc : UInt32),
    (acc.toNat + 1) * 256 ^ n ≤ 2 ^ 32 →
    ((List.range n).reverse.foldl (fun (value : UInt32) i =>
      value <<< 8 ||| (b.getD i 0).toUInt32) acc).toNat =
        acc.toNat * 256 ^ n + ofLE (b.take n) := by
  intro n
  induction n with
  | zero => simp [ofLE]
  | succ n ih =>
    intro acc h
    have hb := byte_lt b n
    have hpos : 1 ≤ 256 ^ n := Nat.one_le_pow _ _ (by decide)
    have hsmall : (acc.toNat + 1) * 256 ≤ 2 ^ 32 := by
      refine le_trans ?_ h
      rw [pow_succ', ← Nat.mul_assoc]
      exact Nat.le_mul_of_pos_right _ hpos
    have hstep : (acc <<< 8 ||| (b.getD n 0).toUInt32).toNat =
        acc.toNat * 256 + (b.getD n 0).toUInt32.toNat :=
      toNat_shl_or (k := 8) (by decide) (by omega) hb
    rw [List.range_succ, List.reverse_append, List.reverse_singleton, List.singleton_append,
      List.foldl_cons, ih, hstep, ofLE_take_succ, UInt8.toNat_toUInt32]
    · ring
    · rw [hstep]
      calc (acc.toNat * 256 + (b.getD n 0).toUInt32.toNat + 1) * 256 ^ n
          ≤ (acc.toNat + 1) * 256 * 256 ^ n := Nat.mul_le_mul_right _ (by omega)
        _ = (acc.toNat + 1) * 256 ^ (n + 1) := by ring
        _ ≤ 2 ^ 32 := h

/-- The mantissa is `⌊t · 256^3 / 256^n⌋` for an `n`-byte `t`. -/
theorem toNat_compactMantissa {b : Bytes} {n : Nat} :
    (compactMantissa b n).toNat = ofLE (b.take n) * 256 ^ 3 / 256 ^ n := by
  have hb := byte_lt b
  have hu : ∀ i, (b.getD i 0).toUInt32.toNat = (b.getD i 0).toNat := fun i =>
    UInt8.toNat_toUInt32 _
  unfold compactMantissa
  by_cases h3 : n ≤ 3
  · rw [if_pos h3]
    have hfold := toNat_fold_bytes b n 0 (by
      rw [show (0 : UInt32).toNat + 1 = 1 by decide, Nat.one_mul]
      exact le_trans (Nat.pow_le_pow_right (by decide) h3) (by decide))
    rw [show (0 : UInt32).toNat = 0 by decide, Nat.zero_mul, Nat.zero_add] at hfold
    have hlt := ofLE_take_lt b n
    have hpow := pow_256_three h3
    rw [toNat_shiftLeft (by omega) (by
      rw [hfold]
      calc ofLE (b.take n) * 2 ^ (8 * (3 - n)) < 256 ^ n * 2 ^ (8 * (3 - n)) :=
            Nat.mul_lt_mul_of_pos_right hlt (by positivity)
        _ = 256 ^ 3 := hpow.symm
        _ < 2 ^ 32 := by decide), hfold, hpow,
      show ofLE (b.take n) * (256 ^ n * 2 ^ (8 * (3 - n))) =
        256 ^ n * (ofLE (b.take n) * 2 ^ (8 * (3 - n))) by ring,
      Nat.mul_div_cancel_left _ (by positivity)]
  · rw [if_neg h3]
    have h16 : ((b.getD (n - 1) 0).toUInt32 <<< 16).toNat =
        (b.getD (n - 1) 0).toUInt32.toNat * 2 ^ 16 :=
      toNat_shiftLeft (k := 16) (by decide) (by have := hb (n - 1); omega)
    have h8 : ((b.getD (n - 2) 0).toUInt32 <<< 8).toNat =
        (b.getD (n - 2) 0).toUInt32.toNat * 2 ^ 8 :=
      toNat_shiftLeft (k := 8) (by decide) (by have := hb (n - 2); omega)
    have hhi := toNat_or_low (x := (b.getD (n - 1) 0).toUInt32 <<< 16)
      (y := (b.getD (n - 2) 0).toUInt32 <<< 8) (k := 16) (by rw [h16]; exact Nat.dvd_mul_left _ _)
      (by rw [h8]; have := hb (n - 2); omega)
    rw [toNat_or_low (k := 8) (by rw [hhi, h16, h8]; omega) (by simpa using hb (n - 3)), hhi, h16,
      h8, hu, hu, hu]
    have hpow : 256 ^ n = 256 ^ (n - 3) * 256 ^ 3 := by
      rw [← pow_add, Nat.sub_add_cancel (by omega)]
    rw [hpow, Nat.mul_div_mul_right _ _ (by decide), ofLE_take_div b (by omega)]
    norm_num

/-- The number a byte-length `n` and a mantissa `c` below `2^24` are packed into. -/
theorem toNat_pack {n c : Nat} {x : UInt32} (hn : n < 256) (hx : x.toNat = c) :
    (UInt32.ofNat n <<< 24 ||| (x &&& 0x007fffff)).toNat = n * 2 ^ 24 + c % 2 ^ 23 := by
  have hnat : (UInt32.ofNat n).toNat = n := by
    rw [UInt32.toNat_ofNat', Nat.mod_eq_of_lt (by omega)]
  have hlow : (x &&& 0x007fffff).toNat < 2 ^ 24 := by
    rw [toNat_and_7fffff]
    omega
  rw [← hx, ← toNat_and_7fffff]
  have h := toNat_shl_or (x := UInt32.ofNat n) (k := 24) (by decide) (by rw [hnat]; omega) hlow
  rw [hnat] at h
  exact h

/-- **The encoder**: byte length and leading bytes, the sign bit kept clear. -/
theorem targetToBits_spec {t : Target} (ht : t.toNat ≠ 0) :
    ∃ n c, 1 ≤ n ∧ n ≤ 32 ∧ 256 ^ (n - 1) ≤ t.toNat ∧ t.toNat < 256 ^ n ∧
      c = t.toNat * 256 ^ 3 / 256 ^ n ∧ c < 2 ^ 24 ∧
      (targetToBits t).toNat =
        if 2 ^ 23 ≤ c then (n + 1) * 2 ^ 24 + c / 256 else n * 2 ^ 24 + c := by
  have hfull : t.toLeBytes.toList.take 32 = t.toLeBytes.toList := by
    rw [List.take_of_length_le (by simp)]
  have hsig := ofLE_take_significantBytes t.toLeBytes.toList 32
  have hle := significantBytes_le t.toLeBytes.toList 32
  have hlead := le_ofLE_take_significantBytes t.toLeBytes.toList 32
  have hlt := ofLE_take_lt t.toLeBytes.toList (significantBytes t.toLeBytes.toList 32)
  unfold targetToBits
  simp only
  generalize significantBytes t.toLeBytes.toList 32 = n at *
  rw [hfull, U256.ofLE_toLeBytes] at hsig
  rw [hsig] at hlt hlead
  have hn0 : n ≠ 0 := by
    rintro rfl
    simp at hlt
    exact ht hlt
  have hc := toNat_compactMantissa (b := t.toLeBytes.toList) (n := n)
  rw [hsig] at hc
  have hc24 : t.toNat * 256 ^ 3 / 256 ^ n < 2 ^ 24 := by
    apply Nat.div_lt_of_lt_mul
    exact Nat.mul_lt_mul_of_pos_right hlt (by decide)
  rw [if_neg hn0]
  refine ⟨n, _, by omega, hle, hlead hn0, hlt, rfl, hc24, ?_⟩
  rw [← hc] at hc24 ⊢
  have hsign := and_800000_ne_zero hc24
  by_cases h23 : 2 ^ 23 ≤ (compactMantissa t.toLeBytes.toList n).toNat
  · rw [if_pos (hsign.2 h23), if_pos h23, toNat_pack (by omega) rfl]
    have hshift : (compactMantissa t.toLeBytes.toList n >>> 8).toNat =
        (compactMantissa t.toLeBytes.toList n).toNat / 2 ^ 8 := toNat_shiftRight (by decide)
    rw [hshift]
    omega
  · rw [if_neg (fun h => h23 (hsign.1 h)), if_neg h23, toNat_pack (by omega) rfl]
    omega

/-- The compact form in normal form: `s` bytes, of which a mantissa of 15 to 23 bits is kept. -/
theorem targetToBits_normal {t : Target} (ht : t.toNat ≠ 0) :
    ∃ s m, m = t.toNat * 256 ^ 3 / 256 ^ s ∧ 2 ^ 15 ≤ m ∧ m < 2 ^ 23 ∧
      (targetToBits t).toNat = s * 2 ^ 24 + m := by
  obtain ⟨n, c, hn, _, hlow, _, hc, hc24, hbits⟩ := targetToBits_spec ht
  have hlead : 256 ^ 2 ≤ c := by
    obtain ⟨j, rfl⟩ : ∃ j, n = j + 1 := ⟨n - 1, by omega⟩
    rw [hc, Nat.le_div_iff_mul_le (by positivity)]
    calc 256 ^ 2 * 256 ^ (j + 1) = 256 ^ (j + 1 - 1) * 256 ^ 3 := by
          rw [Nat.add_sub_cancel]
          ring
      _ ≤ t.toNat * 256 ^ 3 := Nat.mul_le_mul_right _ hlow
  by_cases h23 : 2 ^ 23 ≤ c
  · refine ⟨n + 1, c / 256, ?_, by omega, by omega, by rw [hbits, if_pos h23]⟩
    rw [hc, pow_succ 256 n, Nat.div_div_eq_div_mul]
  · exact ⟨n, c, hc, by omega, by omega, by rw [hbits, if_neg h23]⟩

/-- Through the compact form a target loses the digits below its mantissa. -/
theorem targetFromBits_eq_cut {t : Target} {s m : Nat} (hm : m = t.toNat * 256 ^ 3 / 256 ^ s)
    (hlt : m < 2 ^ 23) (hbits : (targetToBits t).toNat = s * 2 ^ 24 + m) :
    (targetFromBits (targetToBits t)).toNat = Floating.cut 256 (s - 3) t.toNat := by
  have hle : Floating.cut 256 (s - 3) t.toNat < 2 ^ 256 :=
    lt_of_le_of_lt Floating.cut_le t.toNat_lt
  have hvalue : m * 256 ^ s / 256 ^ 3 = Floating.cut 256 (s - 3) t.toNat := by
    rcases Nat.lt_or_ge s 3 with h3 | h3
    · have hpow : 256 ^ 3 = 256 ^ (3 - s) * 256 ^ s := by
        rw [← pow_add, Nat.sub_add_cancel h3.le]
      rw [hm, hpow, ← Nat.mul_assoc, Nat.mul_div_cancel _ (by positivity), Nat.mul_assoc,
        Nat.mul_div_cancel _ (by positivity), Floating.cut, Nat.sub_eq_zero_of_le h3.le]
      simp
    · obtain ⟨j, rfl⟩ : ∃ j, s = j + 3 := ⟨s - 3, by omega⟩
      rw [hm, pow_add, Nat.mul_div_mul_right _ _ (by positivity), ← Nat.mul_assoc,
        Nat.mul_div_cancel _ (by positivity), Floating.cut, Nat.add_sub_cancel]
  rw [toNat_targetFromBits, hbits, show (s * 2 ^ 24 + m) % 2 ^ 23 = m by omega,
    show (s * 2 ^ 24 + m) / 2 ^ 24 = s by omega, hvalue, Nat.mod_eq_of_lt hle]

/-- **The compact form rounds a target down** to the greatest number with a 23-bit mantissa. -/
theorem isGreatest_targetFromBits (t : Target) :
    IsGreatest {n | Floating.Representable 256 (2 ^ 23) n ∧ n ≤ t.toNat}
      (targetFromBits (targetToBits t)).toNat := by
  by_cases ht : t.toNat = 0
  · have hzero : (targetFromBits (targetToBits t)).toNat = 0 := by
      rw [targetToBits_zero ht, toNat_targetFromBits]
      rfl
    rw [hzero, ht]
    exact ⟨⟨⟨0, 0, by norm_num, rfl⟩, Nat.le_refl 0⟩, fun n hn => hn.2⟩
  · obtain ⟨s, m, hm, hlow, hlt, hbits⟩ := targetToBits_normal ht
    rw [targetFromBits_eq_cut hm hlt hbits]
    rcases Nat.lt_or_ge 3 s with h3 | h3
    · have hq : t.toNat / 256 ^ (s - 3) = m := by
        rw [hm, show 256 ^ s = 256 ^ (s - 3) * 256 ^ 3 by
          rw [← pow_add, Nat.sub_add_cancel h3.le], Nat.mul_div_mul_right _ _ (by positivity)]
      exact Floating.isGreatest_cut (by norm_num) (by omega) (.inr (by omega))
    · have hexact : t.toNat ≤ m := by
        rw [hm, Nat.le_div_iff_mul_le (by positivity)]
        exact Nat.mul_le_mul_left _ (Nat.pow_le_pow_right (by norm_num) h3)
      rw [Nat.sub_eq_zero_of_le h3]
      exact Floating.isGreatest_cut (by norm_num) (by rw [pow_zero, Nat.div_one]; omega) (.inl rfl)

/-- **The round trip through the compact form never increases a target.** -/
theorem targetFromBits_targetToBits_le (t : Target) :
    (targetFromBits (targetToBits t)).toNat ≤ t.toNat := (isGreatest_targetFromBits t).1.2

/-- A target other than zero stays so through the compact form. -/
theorem targetFromBits_targetToBits_pos {t : Target} (ht : 1 ≤ t.toNat) :
    1 ≤ (targetFromBits (targetToBits t)).toNat :=
  (isGreatest_targetFromBits t).2 ⟨⟨1, 0, by norm_num, rfl⟩, ht⟩

/-- What the compact form keeps has the same compact form. -/
theorem targetToBits_targetFromBits (t : Target) :
    targetToBits (targetFromBits (targetToBits t)) = targetToBits t := by
  by_cases ht : t.toNat = 0
  · rw [targetToBits_zero ht, targetToBits_zero]
    rw [toNat_targetFromBits]
    rfl
  · obtain ⟨s, m, hm, hlow, hlt, hbits⟩ := targetToBits_normal ht
    have hcut := targetFromBits_eq_cut hm hlt hbits
    have hpos := targetFromBits_targetToBits_pos (Nat.one_le_iff_ne_zero.2 ht)
    obtain ⟨s', m', hm', hlow', hlt', hbits'⟩ := targetToBits_normal (Nat.one_le_iff_ne_zero.1 hpos)
    -- the digits kept are the same, so that the scale is
    have hsame : (targetFromBits (targetToBits t)).toNat * 256 ^ 3 / 256 ^ s = m := by
      rw [hcut, Floating.cut]
      rcases Nat.lt_or_ge s 3 with h3 | h3
      · rw [Nat.sub_eq_zero_of_le h3.le, pow_zero, Nat.div_one, Nat.mul_one, hm]
      · obtain ⟨j, rfl⟩ : ∃ j, s = j + 3 := ⟨s - 3, by omega⟩
        rw [Nat.add_sub_cancel, pow_add, Nat.mul_div_mul_right _ _ (by positivity),
          Nat.mul_div_cancel _ (by positivity), hm, pow_add,
          Nat.mul_div_mul_right _ _ (by positivity)]
    have hscale : s' = s := Floating.scale_unique (B := 256) (L := 2 ^ 15) (by norm_num)
      (hm' ▸ hlow') (by omega) (hsame.symm ▸ hlow) (by omega)
    subst hscale
    apply UInt32.toNat_inj.1
    rw [hbits, hbits', hm', hsame]

/-! ## Retargeting -/

/-- `i64::clamp`. -/
def clamp (value lo hi : Int) : Int := if value < lo then lo else if value > hi then hi else value

/-- The elapsed seconds of an epoch, negative spans included, clamped to the allowed range. -/
def clampedTimespan (epochStartTimestamp previousTimestamp : BlockTimestamp) : UInt32 :=
  let actualTimespan : Int := (previousTimestamp.toNat : Int) - epochStartTimestamp.toNat
  UInt32.ofInt (clamp actualTimespan MIN_EPOCH_TIMESPAN MAX_EPOCH_TIMESPAN)

/-- Compute the compact and normalized full target required at a difficulty boundary. -/
def calculateNextTargetRequired (oldTarget : Target)
    (epochStartTimestamp previousTimestamp : BlockTimestamp) : CompactTarget × Target :=
  let timespan := clampedTimespan epochStartTimestamp previousTimestamp
  -- both loops keep four limbs: the last carry of the product is dropped
  let product := (mulDigits U256.BASE timespan.toNat oldTarget.digits 0).1
  let calculatedTarget : Target :=
    U256.ofDigits (divDigits U256.BASE EXPECTED_EPOCH_TIMESPAN.toNat product).1
  let clampedTarget := calculatedTarget.min GENESIS_TARGET
  let compactTarget := targetToBits clampedTarget
  (compactTarget, targetFromBits compactTarget)

/-- The target a retarget returns is the expansion of the bits it returns. -/
theorem calculateNextTargetRequired_snd (oldTarget : Target) (start previous : BlockTimestamp) :
    (calculateNextTargetRequired oldTarget start previous).2 =
      targetFromBits (calculateNextTargetRequired oldTarget start previous).1 := by
  unfold calculateNextTargetRequired
  simp only

/-- **No retarget exceeds the proof-of-work limit**, whatever the old target and the
timestamps. -/
theorem calculateNextTargetRequired_le (oldTarget : Target) (start previous : BlockTimestamp) :
    (calculateNextTargetRequired oldTarget start previous).2 ≤ GENESIS_TARGET := by
  unfold calculateNextTargetRequired
  simp only
  generalize U256.ofDigits _ = calculatedTarget
  rw [U256.le_iff]
  refine (targetFromBits_targetToBits_le _).trans ?_
  rw [U256.toNat_min]
  exact Nat.min_le_right _ _

theorem GENESIS_TARGET_toNat : GENESIS_TARGET.toNat = 65535 * 2 ^ 208 := by decide

/-- The timespan is clamped between a quarter of and four times the expected one. -/
theorem toNat_clampedTimespan (start previous : BlockTimestamp) :
    (clampedTimespan start previous).toNat =
      (max 302400 (min 4838400 ((previous.toNat : Int) - start.toNat))).toNat := by
  have hclamp : clamp ((previous.toNat : Int) - start.toNat) MIN_EPOCH_TIMESPAN
      MAX_EPOCH_TIMESPAN = max 302400 (min 4838400 ((previous.toNat : Int) - start.toNat)) := by
    rw [MIN_EPOCH_TIMESPAN_eq, MAX_EPOCH_TIMESPAN_eq]
    unfold clamp
    split
    · omega
    · split <;> omega
  unfold clampedTimespan
  simp only [hclamp]
  rw [UInt32.ofInt, UInt32.toNat_ofNat']
  omega

/-- The product of a target within the limit and a timespan fits four limbs. -/
theorem product_fits {oldTarget : Target} (hold : oldTarget ≤ GENESIS_TARGET) {span : Nat}
    (hspan : span ≤ 4838400) :
    (mulDigits U256.BASE span oldTarget.digits 0).2 = 0 ∧
      Nat.ofDigits U256.BASE (mulDigits U256.BASE span oldTarget.digits 0).1 =
        oldTarget.toNat * span := by
  have hvalue := mulDigits_value (B := U256.BASE) (k := span) oldTarget.digits 0
  have hsmall : oldTarget.toNat * span < 2 ^ 256 := by
    have hle := U256.le_iff.1 hold
    rw [GENESIS_TARGET_toNat] at hle
    calc oldTarget.toNat * span ≤ 65535 * 2 ^ 208 * 4838400 := Nat.mul_le_mul hle hspan
      _ < 2 ^ 256 := by norm_num
  rw [U256.length_digits, U256.BASE_pow, Nat.add_zero] at hvalue
  change _ = oldTarget.toNat * span at hvalue
  have hcarry : (mulDigits U256.BASE span oldTarget.digits 0).2 = 0 := by
    by_contra hne
    have hone := Nat.mul_le_mul_left (2 ^ 256) (Nat.one_le_iff_ne_zero.2 hne)
    omega
  rw [hcarry, Nat.mul_zero, Nat.add_zero] at hvalue
  exact ⟨hcarry, hvalue⟩

/-- The target before it is capped and rounded. -/
theorem toNat_quotient {ds : List Nat} (hlen : ds.length = 4) (hds : Digits U256.BASE ds)
    {d : Nat} (hd : 0 < d) :
    (U256.ofDigits (divDigits U256.BASE d ds).1).toNat = Nat.ofDigits U256.BASE ds / d := by
  have hvalue := divDigits_value hd hds
  have hlt := divDigits_remainder_lt (B := U256.BASE) hd ds
  rw [U256.toNat_ofDigits (by rw [length_divDigits, hlen]) (divDigits_digits U256.BASE_pos ds),
    ← hvalue, Nat.add_comm, Nat.add_mul_div_right _ _ hd, Nat.div_eq_of_lt hlt, Nat.zero_add]

/-- The new target before it is rounded. -/
theorem calculateNextTargetRequired_eq {oldTarget : Target} (hold : oldTarget ≤ GENESIS_TARGET)
    (start previous : BlockTimestamp) {span : Nat}
    (hspan : (clampedTimespan start previous).toNat = span) (hle : span ≤ 4838400) :
    ∃ clamped : Target,
      clamped.toNat = min (oldTarget.toNat * span / 1209600) GENESIS_TARGET.toNat ∧
      (calculateNextTargetRequired oldTarget start previous).1 = targetToBits clamped ∧
      (calculateNextTargetRequired oldTarget start previous).2 =
        targetFromBits (targetToBits clamped) := by
  refine ⟨(U256.ofDigits (divDigits U256.BASE 1209600
    (mulDigits U256.BASE span oldTarget.digits 0).1).1).min GENESIS_TARGET, ?_, ?_⟩
  · rw [U256.toNat_min, toNat_quotient (by rw [length_mulDigits, U256.length_digits])
      (mulDigits_digits U256.BASE_pos _ _) (by norm_num), (product_fits hold hle).2]
  · unfold calculateNextTargetRequired
    simp only [hspan, EXPECTED_EPOCH_TIMESPAN_toNat, and_self]

/-- **The retarget formula is computed without overflow.**  From a target within the limit, for
all timestamps, the new target is the compact rounding of the capped product, the bits are its
encoding, the product has no carry out of its four limbs and every quotient limb fits. -/
theorem calculateNextTargetRequired_exact (oldTarget : Target) (start previous : BlockTimestamp)
    (hold : oldTarget ≤ GENESIS_TARGET) :
    let span := (max 302400 (min 4838400 ((previous.toNat : Int) - start.toNat))).toNat
    let product := mulDigits U256.BASE span oldTarget.digits 0
    let r := calculateNextTargetRequired oldTarget start previous
    IsGreatest {n | Floating.Representable 256 (2 ^ 23) n ∧
        n ≤ min (oldTarget.toNat * span / 1209600) GENESIS_TARGET.toNat} r.2.toNat ∧
      r.1 = targetToBits r.2 ∧ targetFromBits r.1 = r.2 ∧ r.2 ≤ GENESIS_TARGET ∧
      product.2 = 0 ∧
      ∀ low x high, product.1 = low ++ x :: high →
        ((divDigits U256.BASE 1209600 high).2 * U256.BASE + x) / 1209600 < U256.BASE := by
  intro span product r
  have hle : span ≤ 4838400 := by omega
  obtain ⟨clamped, hclamped, hbits, htarget⟩ := calculateNextTargetRequired_eq hold start
    previous (toNat_clampedTimespan start previous) hle
  have hgreatest : IsGreatest {n | Floating.Representable 256 (2 ^ 23) n ∧
      n ≤ min (oldTarget.toNat * span / 1209600) GENESIS_TARGET.toNat}
      (calculateNextTargetRequired oldTarget start previous).2.toNat := by
    rw [htarget, ← hclamped]
    exact isGreatest_targetFromBits clamped
  have hencoded : (calculateNextTargetRequired oldTarget start previous).1 =
      targetToBits (calculateNextTargetRequired oldTarget start previous).2 := by
    rw [hbits, htarget, targetToBits_targetFromBits]
  have hdigits : Digits U256.BASE product.1 := mulDigits_digits U256.BASE_pos _ _
  refine ⟨hgreatest, hencoded, (calculateNextTargetRequired_snd oldTarget start previous).symm,
    calculateNextTargetRequired_le oldTarget start previous, (product_fits hold hle).1,
    fun low x high hsplit => ?_⟩
  have hx : x < U256.BASE := hdigits x (by rw [hsplit]; simp)
  exact div_digit_lt (divDigits_remainder_lt (by norm_num) high) hx

/-- A span that runs backwards quarters the target. -/
theorem calculateNextTargetRequired_exact_backwards :
    IsGreatest {n | Floating.Representable 256 (2 ^ 23) n ∧
        n ≤ min (GENESIS_TARGET.toNat * 302400 / 1209600) GENESIS_TARGET.toNat}
      (calculateNextTargetRequired GENESIS_TARGET 1 0).2.toNat :=
  (calculateNextTargetRequired_exact GENESIS_TARGET 1 0 (by decide)).1

end Zkpow
