import Mathlib.Tactic
import Zkpow.Types
import Zkpow.Lib.Limbs
import Zkpow.Lib.ByteCodec

/-!
# The four-limb arithmetic

`u256` of `crates/core/src/types.rs` and the arithmetic of `crates/core/src/lib.rs` on it, with
the number each operation computes.  The loops over the limbs are the digit loops of `Limbs` in
base `2^64`; the `u128` intermediates of the source are natural numbers here, all of them below
`2^128` because the limbs are below `2^64` and the factors below `2^32`.

* `U256.toNat_add`, `U256.toNat_mulU32` — wrapping sum and product;
* `U256.le_iff`, `U256.toNat_inj` — order and equality are those of the numbers;
* `subAssign_spec`, `shl1WithCarry_spec`, `incrementTarget_ok`, `incrementTarget_error`;
* `divisionStep` — the body of the division loop of `work_from_target`;
* `checkProofOfWork_iff` — the proof-of-work test compares the little-endian hash number;
* `u256_arithmetic` — all of it, as arithmetic modulo `2^256`.
-/

set_option autoImplicit false

namespace Zkpow

open ByteCodec Limbs

namespace U256

/-- The size of a limb. -/
def BASE : Nat := 2 ^ 64

/-- The limbs as digits. -/
def digits (a : U256) : List Nat := a.limbs.toList.map UInt64.toNat

/-- The limbs from digits. -/
def ofDigits (ds : List Nat) : U256 := ⟨Vector.ofFn fun i : Fin 4 => UInt64.ofNat (ds.getD i 0)⟩

/-- The number a `u256` stands for. -/
def toNat (a : U256) : Nat := Nat.ofDigits BASE a.digits

@[simp] theorem length_digits (a : U256) : a.digits.length = 4 := by simp [digits]

theorem digits_lt (a : U256) : Digits BASE a.digits := by
  intro x hx
  obtain ⟨l, _, rfl⟩ := List.mem_map.1 hx
  exact l.toNat_lt

theorem digits_ofDigits {ds : List Nat} (hlen : ds.length = 4) (hlt : Digits BASE ds) :
    (ofDigits ds).digits = ds := by
  apply List.ext_getElem
  · simp [hlen]
  · intro i h1 h2
    have h : ds[i] < 2 ^ 64 := hlt _ (List.getElem_mem h2)
    simp only [digits, ofDigits, List.getElem_map, Vector.getElem_toList, Vector.getElem_ofFn]
    rw [List.getD_eq_getElem?_getD, List.getElem?_eq_getElem h2, Option.getD_some,
      UInt64.toNat_ofNat', Nat.mod_eq_of_lt h]

theorem toNat_ofDigits {ds : List Nat} (hlen : ds.length = 4) (hlt : Digits BASE ds) :
    (ofDigits ds).toNat = Nat.ofDigits BASE ds := by
  rw [toNat, digits_ofDigits hlen hlt]

theorem BASE_pos : 0 < BASE := Nat.two_pow_pos 64

theorem BASE_pow : BASE ^ 4 = 2 ^ 256 := by decide

theorem toNat_lt (a : U256) : a.toNat < 2 ^ 256 := by
  have h := a.digits_lt.value_lt
  rwa [length_digits, BASE_pow] at h

theorem digits_inj {a b : U256} (h : a.digits = b.digits) : a = b := by
  cases a with | mk u => cases b with | mk v =>
  simp only [digits] at h
  have hl : u.toList = v.toList :=
    List.map_injective_iff.2 (fun x y hxy => UInt64.toNat_inj.1 hxy) h
  rw [Vector.toList_inj.1 hl]

/-- **A `u256` is determined by its number.** -/
theorem toNat_inj {a b : U256} (h : a.toNat = b.toNat) : a = b :=
  digits_inj (a.digits_lt.value_inj b.digits_lt (by simp) h)

/-- The limbs, least significant first. -/
theorem toNat_eq_limbs (a : U256) : a.toNat = a.limbs[0].toNat + 2 ^ 64 * a.limbs[1].toNat +
    2 ^ 128 * a.limbs[2].toNat + 2 ^ 192 * a.limbs[3].toNat := by
  have h : a.limbs.toList = [a.limbs[0], a.limbs[1], a.limbs[2], a.limbs[3]] := by
    apply List.ext_getElem
    · simp
    · intro i h1 h2
      have h4 : i < 4 := by simpa using h1
      interval_cases i <;> simp
  rw [toNat, digits, h]
  simp only [List.map_cons, List.map_nil, Nat.ofDigits_cons, Nat.ofDigits_nil, BASE]
  ring

/-! ## Sum and product -/

/-- `impl Add for ChainWork`: the last carry is dropped. -/
def add (a b : U256) : U256 := ofDigits (addDigits BASE a.digits b.digits 0).1

instance : Add U256 := ⟨add⟩

/-- `impl Mul<u32> for ChainWork`: the last carry is dropped. -/
def mulU32 (a : U256) (k : UInt32) : U256 := ofDigits (mulDigits BASE k.toNat a.digits 0).1

instance : HMul U256 UInt32 U256 := ⟨mulU32⟩

@[simp] theorem toNat_add (a b : U256) : (a + b).toNat = (a.toNat + b.toNat) % 2 ^ 256 := by
  have hd := addDigits_digits (B := BASE) BASE_pos a.digits b.digits 0
  have hl := length_addDigits (B := BASE) (c := 0) (show a.digits.length = b.digits.length by simp)
  have hv := addDigits_value (B := BASE) (c := 0) (show a.digits.length = b.digits.length by simp)
  rw [length_digits] at hl hv
  show (ofDigits _).toNat = _
  rw [toNat_ofDigits hl hd, value_eq_mod (N := a.toNat + b.toNat) hd (by rw [hl, hv]; rfl), hl,
    BASE_pow]

@[simp] theorem toNat_mulU32 (a : U256) (k : UInt32) :
    (a * k).toNat = a.toNat * k.toNat % 2 ^ 256 := by
  have hd := mulDigits_digits (B := BASE) (k := k.toNat) BASE_pos a.digits 0
  have hl := length_mulDigits (B := BASE) (k := k.toNat) a.digits 0
  have hv := mulDigits_value (B := BASE) (k := k.toNat) a.digits 0
  rw [length_digits] at hl hv
  show (ofDigits _).toNat = _
  rw [toNat_ofDigits hl hd, value_eq_mod (N := a.toNat * k.toNat) hd (by rw [hl, hv]; rfl), hl,
    BASE_pow]

/-! ## Order -/

/-- `Ord for u256`: from the most significant limb down. -/
def cmp (a b : U256) : Ordering := compareDigits a.digits b.digits

instance : LE U256 := ⟨fun a b => a.cmp b ≠ .gt⟩

instance : DecidableLE U256 := fun a b => inferInstanceAs (Decidable (a.cmp b ≠ .gt))

theorem cmp_eq (a b : U256) : a.cmp b = compare a.toNat b.toNat :=
  compareDigits_eq (by simp) a.digits_lt b.digits_lt

theorem le_iff {a b : U256} : a ≤ b ↔ a.toNat ≤ b.toNat := by
  show a.cmp b ≠ .gt ↔ _
  rw [cmp_eq, ne_eq, compare_gt_iff_gt]
  omega

/-- `Ord::min`. -/
def min (a b : U256) : U256 := if a ≤ b then a else b

theorem toNat_min (a b : U256) : (a.min b).toNat = Nat.min a.toNat b.toNat := by
  unfold min
  by_cases h : a ≤ b
  · rw [if_pos h]
    exact (Nat.min_eq_left (le_iff.1 h)).symm
  · rw [if_neg h]
    exact (Nat.min_eq_right (by rw [le_iff] at h; omega)).symm

/-! ## Bytes -/

/-- `u64::from_le_bytes` of each eight-byte slice. -/
def fromLeBytes (bytes : Bytes32) : U256 :=
  ⟨#v[Codec.u64.dec (slice bytes.toList 0 8), Codec.u64.dec (slice bytes.toList 8 16),
    Codec.u64.dec (slice bytes.toList 16 24), Codec.u64.dec (slice bytes.toList 24 32)]⟩

/-- The limbs' little-endian bytes at offsets 0, 8, 16 and 24. -/
def toLeBytes (a : U256) : Bytes32 :=
  let out := List.replicate 32 0
  let out := put out 0 8 (Codec.u64.enc a.limbs[0])
  let out := put out 8 16 (Codec.u64.enc a.limbs[1])
  let out := put out 16 24 (Codec.u64.enc a.limbs[2])
  let out := put out 24 32 (Codec.u64.enc a.limbs[3])
  (Codec.array 32).dec out

theorem toList_toLeBytes (a : U256) : (toLeBytes a).toList =
    Codec.u64.enc a.limbs[0] ++ Codec.u64.enc a.limbs[1] ++ Codec.u64.enc a.limbs[2] ++
      Codec.u64.enc a.limbs[3] := by
  unfold toLeBytes
  simp only
  rw [put_start (by simp), put_next (by simp) (by simp), put_next (by simp) (by simp),
    put_next (by simp) (by simp)]
  simp only [length_u64_enc, List.drop_replicate, Nat.reduceSub, List.replicate_zero,
    List.append_nil]
  exact toList_array_dec (by simp)

theorem limbs_eq (a : U256) : a.limbs = #v[a.limbs[0], a.limbs[1], a.limbs[2], a.limbs[3]] := by
  ext i hi
  rcases i with _ | _ | _ | _ | i
  · rfl
  · rfl
  · rfl
  · rfl
  · omega

theorem fromLeBytes_toLeBytes (a : U256) : fromLeBytes (toLeBytes a) = a := by
  have hs : ∀ x, slice (Codec.u64.enc x) 0 8 = Codec.u64.enc x := fun x =>
    slice_full (length_u64_enc x)
  simp only [fromLeBytes, toList_toLeBytes]
  simp only [List.append_assoc, slice_append_left, slice_append_right, length_u64_enc, hs,
    u64_dec_enc, Nat.le_refl, Nat.reduceLeDiff, Nat.reduceSub]
  rw [← limbs_eq]

theorem toList_eq_slices (b : Bytes32) : b.toList = slice b.toList 0 8 ++ slice b.toList 8 16 ++
    slice b.toList 16 24 ++ slice b.toList 24 32 := by
  simp only [slice_append_slice, Nat.reduceLeDiff]
  rw [slice_full (by simp)]

theorem length_limb_slice (b : Bytes32) {lo hi : Nat} (h : hi ≤ 32) :
    (slice b.toList lo hi).length = hi - lo :=
  length_slice _ _ _ (by simpa using h)

theorem toLeBytes_fromLeBytes (b : Bytes32) : toLeBytes (fromLeBytes b) = b := by
  apply Vector.toList_inj.1
  rw [toList_toLeBytes]
  conv_rhs => rw [toList_eq_slices b]
  simp only [fromLeBytes, Vector.getElem_mk, List.getElem_toArray, List.getElem_cons_zero,
    List.getElem_cons_succ]
  simp only [u64_enc_dec, length_limb_slice, Nat.reduceLeDiff, Nat.reduceSub]

/-- A `u256` on the wire. -/
def codec : Codec U256 where
  width := 32
  enc a := (toLeBytes a).toList
  dec b := fromLeBytes ((Codec.array 32).dec b)
  enc_length a := by simp
  dec_enc a := by rw [array_dec_toList, fromLeBytes_toLeBytes]
  enc_dec b h := by rw [toLeBytes_fromLeBytes, toList_array_dec h]

theorem toNat_u64_dec {b : Bytes} (h : b.length = 8) : (Codec.u64.dec b).toNat = ofLE b := by
  have hlt := ofLE_lt b
  rw [h] at hlt
  show (UInt64.ofNat _).toNat = _
  rw [UInt64.toNat_ofNat', Nat.mod_eq_of_lt (by simpa using hlt)]

/-- **The bytes read as a little-endian number are the number read from the limbs.** -/
theorem toNat_fromLeBytes (b : Bytes32) : (fromLeBytes b).toNat = ofLE b.toList := by
  conv_rhs => rw [toList_eq_slices b]
  rw [ofLE_append, ofLE_append, ofLE_append, toNat_eq_limbs]
  simp only [List.length_append, length_limb_slice, Nat.reduceLeDiff, Nat.reduceSub,
    Nat.reduceAdd, fromLeBytes, Vector.getElem_mk, List.getElem_toArray, List.getElem_cons_zero,
    List.getElem_cons_succ, toNat_u64_dec]
  norm_num

end U256

/-- Check whether a header hash satisfies a target. -/
def checkProofOfWork (hash : BlockHash) (target : Target) : Bool :=
  decide (U256.fromLeBytes hash ≤ target)

theorem checkProofOfWork_iff {hash : BlockHash} {target : Target} :
    checkProofOfWork hash target = true ↔ ofLE hash.toList ≤ target.toNat := by
  rw [checkProofOfWork, decide_eq_true_eq, U256.le_iff, U256.toNat_fromLeBytes]

/-! ## In-place operations of the work division -/

/-- Subtract `rhs`; the flag is the borrow out. -/
def subAssign (lhs rhs : U256) : U256 × Bool :=
  let r := subDigits U256.BASE lhs.digits rhs.digits false
  (U256.ofDigits r.1, r.2)

theorem subAssign_spec (a b : U256) :
    (subAssign a b).1.toNat = (a.toNat + 2 ^ 256 - b.toNat) % 2 ^ 256 ∧
      (subAssign a b).2 = decide (a.toNat < b.toNat) := by
  have hlen : a.digits.length = b.digits.length := by simp
  have hd := subDigits_digits (B := U256.BASE) U256.BASE_pos a.digits b.digits false
  have hl := length_subDigits (B := U256.BASE) (b := false) hlen
  have hv := subDigits_value (b := false) hlen a.digits_lt b.digits_lt
  have hb := subDigits_borrow (B := U256.BASE) U256.BASE_pos hlen a.digits_lt b.digits_lt
  rw [U256.length_digits] at hl hv
  refine ⟨?_, hb⟩
  have hr : (subAssign a b).1.toNat = Nat.ofDigits U256.BASE
      (subDigits U256.BASE a.digits b.digits false).1 := U256.toNat_ofDigits hl hd
  have hlt := (subAssign a b).1.toNat_lt
  have ha := a.toNat_lt
  have hbl := b.toNat_lt
  rw [← hr, hb, U256.BASE_pow, Bool.toNat_false, Nat.add_zero] at hv
  change (subAssign a b).1.toNat + b.toNat = a.toNat + 2 ^ 256 * (decide (a.toNat < b.toNat)).toNat
    at hv
  by_cases hab : a.toNat < b.toNat
  · rw [decide_eq_true hab, Bool.toNat_true] at hv
    rw [Nat.mod_eq_of_lt (by omega)]
    omega
  · rw [decide_eq_false hab, Bool.toNat_false] at hv
    rw [show a.toNat + 2 ^ 256 - b.toNat = a.toNat - b.toNat + 2 ^ 256 by omega,
      Nat.add_mod_right, Nat.mod_eq_of_lt (by omega)]
    omega

/-- Shift left by one bit; the flag is the evicted top bit. -/
def shl1WithCarry (value : U256) : U256 × Bool :=
  let r := shlDigits U256.BASE value.digits 0
  (U256.ofDigits r.1, decide (r.2 > 0))

theorem shl1WithCarry_spec (a : U256) :
    (shl1WithCarry a).1.toNat + 2 ^ 256 * (shl1WithCarry a).2.toNat = 2 * a.toNat := by
  have hd := shlDigits_digits (B := U256.BASE) (by decide) a.digits_lt (Nat.zero_le 1)
  have hl := length_shlDigits (B := U256.BASE) a.digits 0
  have hv := shlDigits_value (B := U256.BASE) (by decide) a.digits_lt (Nat.zero_le 1)
  have hc := shlDigits_carry_le a.digits_lt (Nat.zero_le 1)
  rw [U256.length_digits] at hl hv
  have hr : (shl1WithCarry a).1.toNat = Nat.ofDigits U256.BASE
      (shlDigits U256.BASE a.digits 0).1 := U256.toNat_ofDigits hl hd
  have hflag : (shl1WithCarry a).2.toNat = (shlDigits U256.BASE a.digits 0).2 := by
    show (decide _).toNat = _
    rcases Nat.le_one_iff_eq_zero_or_eq_one.1 hc with h | h <;> rw [h] <;> rfl
  rw [hr, hflag, ← U256.BASE_pow, hv]
  rfl

/-- Add one to a target, or report a target that is saturated in all limbs. -/
def incrementTarget (target : U256) : Except TargetError U256 :=
  match incrementDigits U256.BASE target.digits with
  | some ds => .ok (U256.ofDigits ds)
  | none => .error .targetTooLarge

theorem incrementTarget_ok {t d : U256} (h : incrementTarget t = .ok d) :
    d.toNat = t.toNat + 1 := by
  unfold incrementTarget at h
  split at h
  · rename_i ds hds
    cases h
    obtain ⟨hd, hl, hv⟩ := incrementDigits_some t.digits_lt hds
    rw [U256.toNat_ofDigits (by rw [hl]; simp) hd, hv]
    rfl
  · cases h

theorem incrementTarget_error {t : U256} :
    incrementTarget t = .error .targetTooLarge ↔ t.toNat + 1 = 2 ^ 256 := by
  have hn := incrementDigits_none t.digits_lt
  rw [U256.length_digits, U256.BASE_pow] at hn
  rw [U256.toNat, ← hn]
  unfold incrementTarget
  split <;> simp_all

/-! ### One step of the division -/

/-- The number zero, the initial remainder and quotient. -/
def U256.ZERO : U256 := ⟨#v[0, 0, 0, 0]⟩

@[simp] theorem U256.toNat_ZERO : U256.ZERO.toNat = 0 := by decide

/-- `quotient[bit / 64] |= 1 << (bit % 64)`. -/
def setQuotientBit (quotient : U256) (bit : Nat) (h : bit < 256) : U256 :=
  have hi : bit / 64 < 4 := by omega
  ⟨quotient.limbs.set (bit / 64) (quotient.limbs[bit / 64] ||| 1 <<< UInt64.ofNat (bit % 64))⟩

/-- One step of the division, on the remainder and the quotient. -/
def divisionStep (divisor : U256) (s : U256 × U256) (bit : Nat) : U256 × U256 :=
  let (remainder, carry) := shl1WithCarry s.1
  -- the dividend `2^256` has its only set bit at index 256
  let remainder : U256 :=
    if bit = 256 then ⟨remainder.limbs.set 0 (remainder.limbs[0] ||| 1)⟩ else remainder
  -- with the carry set the remainder is above `2^256`, hence above the divisor
  if carry || decide (divisor ≤ remainder) then
    ((subAssign remainder divisor).1,
      if h : bit < 256 then setQuotientBit s.2 bit h else s.2)
  else (remainder, s.2)

/-- The value of the remainder after the shift, dividend bit included. -/
theorem shift_value (r : U256) (bit : Nat) (h : bit = 256 → r.toNat = 0) :
    (if bit = 256 then
        (⟨(shl1WithCarry r).1.limbs.set 0 ((shl1WithCarry r).1.limbs[0] ||| 1)⟩ : U256)
      else (shl1WithCarry r).1).toNat + 2 ^ 256 * (shl1WithCarry r).2.toNat =
      2 * r.toNat + if bit = 256 then 1 else 0 := by
  have hs := shl1WithCarry_spec r
  by_cases hb : bit = 256
  · rw [if_pos hb, if_pos hb]
    have hr : r = U256.ZERO := U256.toNat_inj (by rw [h hb]; rfl)
    subst hr
    decide
  · rw [if_neg hb, if_neg hb, hs]
    rfl

/-! ## Arithmetic modulo `2^256` -/

/-- The bytes of a number, read as a little-endian number, are the number. -/
theorem U256.ofLE_toLeBytes (a : U256) : ofLE a.toLeBytes.toList = a.toNat := by
  rw [← U256.toNat_fromLeBytes, U256.fromLeBytes_toLeBytes]

/-- The difference, modulo `2^256`. -/
theorem toNat_subAssign (a b : U256) :
    ((subAssign a b).1.toNat : Int) = ((a.toNat : Int) - b.toNat) % 2 ^ 256 := by
  have hle : b.toNat ≤ a.toNat + 2 ^ 256 := by
    have hb := b.toNat_lt
    omega
  calc ((subAssign a b).1.toNat : Int)
      = ((a.toNat + 2 ^ 256 - b.toNat : Nat) : Int) % 2 ^ 256 := by
        rw [(subAssign_spec a b).1]
        push_cast
        rfl
    _ = ((a.toNat : Int) - b.toNat + 2 ^ 256) % 2 ^ 256 := by
        refine congrArg (· % 2 ^ 256) ?_
        rw [Nat.cast_sub hle]
        push_cast
        ring
    _ = ((a.toNat : Int) - b.toNat) % 2 ^ 256 := Int.add_emod_right _ _

/-- The double, modulo `2^256`, and its top bit. -/
theorem toNat_shl1WithCarry (a : U256) :
    (shl1WithCarry a).1.toNat = 2 * a.toNat % 2 ^ 256 ∧
      ((shl1WithCarry a).2 = true ↔ 2 ^ 255 ≤ a.toNat) := by
  have hspec := shl1WithCarry_spec a
  have hlt := (shl1WithCarry a).1.toNat_lt
  have ha := a.toNat_lt
  cases hcarry : (shl1WithCarry a).2 with
  | false =>
    rw [hcarry, Bool.toNat_false] at hspec
    constructor
    · omega
    · simp only [Bool.false_eq_true, false_iff]
      omega
  | true =>
    rw [hcarry, Bool.toNat_true] at hspec
    constructor
    · omega
    · simp only [true_iff]
      omega

/-- What adding `a` to zero `n` times comes to. -/
theorem toNat_iterate_add (a : U256) (n : Nat) :
    ((· + a)^[n] ⟨#v[0, 0, 0, 0]⟩).toNat = a.toNat * n % 2 ^ 256 := by
  induction n with
  | zero =>
    have hzero : (⟨#v[0, 0, 0, 0]⟩ : U256).toNat = 0 := by decide
    rw [Function.iterate_zero_apply, hzero, Nat.mul_zero, Nat.zero_mod]
  | succ n ih =>
    rw [Function.iterate_succ_apply', U256.toNat_add, ih, Nat.mod_add_mod, Nat.mul_succ]

/-- **The four-limb arithmetic is arithmetic modulo `2^256`.**  A product is a repeated sum; the
flags of the in-place operations are the borrow and the bit shifted out; the order, the bytes and
the proof-of-work test are those of the numbers. -/
theorem u256_arithmetic (a b : U256) (k : UInt32) (bytes hash : Bytes32) :
    (a + b).toNat = (a.toNat + b.toNat) % 2 ^ 256 ∧
      (a * k).toNat = a.toNat * k.toNat % 2 ^ 256 ∧
      a * k = (· + a)^[k.toNat] ⟨#v[0, 0, 0, 0]⟩ ∧
      ((subAssign a b).1.toNat : Int) = ((a.toNat : Int) - b.toNat) % 2 ^ 256 ∧
      ((subAssign a b).2 = true ↔ a.toNat < b.toNat) ∧
      (shl1WithCarry a).1.toNat = 2 * a.toNat % 2 ^ 256 ∧
      ((shl1WithCarry a).2 = true ↔ 2 ^ 255 ≤ a.toNat) ∧
      a.cmp b = compare a.toNat b.toNat ∧
      U256.fromLeBytes a.toLeBytes = a ∧ (U256.fromLeBytes bytes).toLeBytes = bytes ∧
      (U256.fromLeBytes bytes).toNat = ofLE bytes.toList ∧ ofLE a.toLeBytes.toList = a.toNat ∧
      (checkProofOfWork hash a = true ↔ ofLE hash.toList ≤ a.toNat) := by
  have hrepeat : a * k = (· + a)^[k.toNat] ⟨#v[0, 0, 0, 0]⟩ := by
    apply U256.toNat_inj
    rw [U256.toNat_mulU32, toNat_iterate_add]
  have hborrow : (subAssign a b).2 = true ↔ a.toNat < b.toNat := by
    rw [(subAssign_spec a b).2, decide_eq_true_eq]
  obtain ⟨hdouble, hcarry⟩ := toNat_shl1WithCarry a
  exact ⟨U256.toNat_add a b, U256.toNat_mulU32 a k, hrepeat, toNat_subAssign a b, hborrow,
    hdouble, hcarry, U256.cmp_eq a b, U256.fromLeBytes_toLeBytes a,
    U256.toLeBytes_fromLeBytes bytes, U256.toNat_fromLeBytes bytes, U256.ofLE_toLeBytes a,
    checkProofOfWork_iff⟩

end Zkpow
