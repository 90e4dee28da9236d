import Mathlib.Tactic

/-!
# Fixed-width byte codecs

A `Codec α` is a bijection between the values of `α` and the byte strings of one length, with
the three laws that say so as fields.  Wire formats are put together from a few of them:

* `natLE` and the words `u8`, `u32`, `u64` — little-endian integers;
* `array n` — raw byte arrays;
* `prod`, `vector` — fields one after the other;
* `reverse` — big-endian words;
* `iso` — a record over the tuple of its fields.

`encodeList` and `decodeList` are the unframed list formats (element after element), inverse to
each other on the byte strings the element width divides (`decodeList_encodeList`,
`encodeList_decodeList`).  `slice` and `put` read and write at explicit offsets.
-/

set_option autoImplicit false

namespace ByteCodec

abbrev Bytes := List UInt8

/-! ## Slices -/

/-- `b[lo..hi]`. -/
def slice (b : Bytes) (lo hi : Nat) : Bytes := (b.take hi).drop lo

/-- `b[lo..hi].copy_from_slice(src)`. -/
def put (b : Bytes) (lo hi : Nat) (src : Bytes) : Bytes := b.take lo ++ (src ++ b.drop hi)

theorem length_slice (b : Bytes) (lo hi : Nat) (h : hi ≤ b.length) :
    (slice b lo hi).length = hi - lo := by
  simp [slice]; omega

theorem slice_full {b : Bytes} {n : Nat} (h : b.length = n) : slice b 0 n = b := by
  simp [slice, List.take_of_length_le (Nat.le_of_eq h)]

theorem slice_append_left {a b : Bytes} {lo hi : Nat} (h : hi ≤ a.length) :
    slice (a ++ b) lo hi = slice a lo hi := by
  simp [slice, List.take_append_of_le_length h]

theorem slice_append_right {a b : Bytes} {lo hi : Nat} (h : a.length ≤ lo) :
    slice (a ++ b) lo hi = slice b (lo - a.length) (hi - a.length) := by
  unfold slice
  rw [List.take_append, List.drop_append]
  have h1 : (List.take hi a).drop lo = [] := List.drop_eq_nil_of_le (by simp; omega)
  rw [h1, List.nil_append, List.length_take]
  by_cases hhi : hi ≤ a.length
  · simp [Nat.sub_eq_zero_of_le hhi]
  · rw [Nat.min_eq_right (by omega)]

theorem slice_append_slice {b : Bytes} {lo mid hi : Nat} (h₁ : lo ≤ mid) (h₂ : mid ≤ hi) :
    slice b lo mid ++ slice b mid hi = slice b lo hi := by
  unfold slice
  rw [show b.take mid = (b.take hi).take mid by rw [List.take_take, Nat.min_eq_left h₂],
    List.drop_take]
  have := List.take_append_drop (mid - lo) ((b.take hi).drop lo)
  rwa [List.drop_drop, Nat.add_sub_cancel' h₁] at this

/-- A slice of a slice. -/
theorem slice_slice {b : Bytes} {lo hi i j : Nat} (h : lo + j ≤ hi) :
    slice (slice b lo hi) i j = slice b (lo + i) (lo + j) := by
  unfold slice
  rw [List.take_drop, List.drop_drop, List.take_take, Nat.min_eq_left h]

/-- Writing the first field of a buffer. -/
theorem put_start {out src : Bytes} {hi : Nat} (hhi : hi = src.length) :
    put out 0 hi src = src ++ out.drop src.length := by
  subst hhi
  simp [put]

/-- Writing the next field of a buffer whose front is already written. -/
theorem put_next {done todo src : Bytes} {lo hi : Nat} (hlo : lo = done.length)
    (hhi : hi = lo + src.length) :
    put (done ++ todo) lo hi src = (done ++ src) ++ todo.drop src.length := by
  subst hlo hhi
  simp [put, List.drop_append]

/-! ## Little-endian naturals -/

/-- The `w` little-endian bytes of `n`. -/
def natLE : Nat → Nat → Bytes
  | 0, _ => []
  | w + 1, n => UInt8.ofNat n :: natLE w (n / 256)

/-- The number with the given little-endian bytes. -/
def ofLE : Bytes → Nat
  | [] => 0
  | b :: bs => b.toNat + 256 * ofLE bs

@[simp] theorem length_natLE : ∀ w n : Nat, (natLE w n).length = w := by
  intro w
  induction w with
  | zero => exact fun _ => rfl
  | succ w ih => simp [natLE, ih]

theorem ofLE_natLE : ∀ w n : Nat, ofLE (natLE w n) = n % 256 ^ w := by
  intro w
  induction w with
  | zero => simp [natLE, ofLE, Nat.mod_one]
  | succ w ih =>
    intro n
    rw [natLE, ofLE, ih, pow_succ', Nat.mod_mul]
    simp

theorem ofLE_lt (b : Bytes) : ofLE b < 256 ^ b.length := by
  induction b with
  | nil => simp [ofLE]
  | cons x b ih =>
    have hx : x.toNat < 256 := x.toNat_lt
    rw [ofLE, List.length_cons, pow_succ]
    omega

theorem ofLE_append (a b : Bytes) : ofLE (a ++ b) = ofLE a + 256 ^ a.length * ofLE b := by
  induction a with
  | nil => simp [ofLE]
  | cons x a ih =>
    rw [List.cons_append, ofLE, ofLE, ih, List.length_cons, pow_succ]
    ring

theorem natLE_ofLE (b : Bytes) : natLE b.length (ofLE b) = b := by
  induction b with
  | nil => rfl
  | cons x b ih =>
    have hx : x.toNat < 256 := x.toNat_lt
    rw [List.length_cons, natLE, ofLE]
    congr 1
    · apply UInt8.toNat_inj.1
      simp only [UInt8.toNat_ofNat']
      omega
    · rw [Nat.add_mul_div_left _ _ (by omega), Nat.div_eq_of_lt hx, Nat.zero_add, ih]

/-! ## Codecs -/

/-- A bijection between `α` and the byte strings of length `width`. -/
structure Codec (α : Type) where
  width : Nat
  enc : α → Bytes
  dec : Bytes → α
  enc_length : ∀ a, (enc a).length = width
  dec_enc : ∀ a, dec (enc a) = a
  enc_dec : ∀ b, b.length = width → enc (dec b) = b

theorem Codec.enc_inj {α : Type} (c : Codec α) {a a' : α} (h : c.enc a = c.enc a') : a = a' := by
  rw [← c.dec_enc a, h, c.dec_enc]

def Codec.u8 : Codec UInt8 where
  width := 1
  enc a := [a]
  dec b := b.headD 0
  enc_length _ := rfl
  dec_enc _ := rfl
  enc_dec b h := by
    obtain ⟨x, rfl⟩ := List.length_eq_one_iff.1 h
    rfl

def Codec.u32 : Codec UInt32 where
  width := 4
  enc a := natLE 4 a.toNat
  dec b := UInt32.ofNat (ofLE b)
  enc_length _ := length_natLE 4 _
  dec_enc a := by
    rw [ofLE_natLE, Nat.mod_eq_of_lt (by simpa using a.toNat_lt)]
    exact UInt32.ofNat_toNat
  enc_dec b h := by
    have hb := ofLE_lt b
    rw [h] at hb
    rw [UInt32.toNat_ofNat', Nat.mod_eq_of_lt (by simpa using hb), ← h]
    exact natLE_ofLE b

def Codec.u64 : Codec UInt64 where
  width := 8
  enc a := natLE 8 a.toNat
  dec b := UInt64.ofNat (ofLE b)
  enc_length _ := length_natLE 8 _
  dec_enc a := by
    rw [ofLE_natLE, Nat.mod_eq_of_lt (by simpa using a.toNat_lt)]
    exact UInt64.ofNat_toNat
  enc_dec b h := by
    have hb := ofLE_lt b
    rw [h] at hb
    rw [UInt64.toNat_ofNat', Nat.mod_eq_of_lt (by simpa using hb), ← h]
    exact natLE_ofLE b

/-- `[u8; n]`. -/
def Codec.array (n : Nat) : Codec (Vector UInt8 n) where
  width := n
  enc a := a.toList
  dec b := Vector.ofFn fun i => b.getD i 0
  enc_length a := Vector.length_toList
  dec_enc a := by
    ext i hi
    simp [List.getD_eq_getElem?_getD]
  enc_dec b h := by
    apply List.ext_getElem
    · simp [h]
    · intro i h1 h2
      simp [List.getD_eq_getElem?_getD, h2]

theorem toList_array_dec {n : Nat} {b : Bytes} (h : b.length = n) :
    ((Codec.array n).dec b).toList = b :=
  (Codec.array n).enc_dec b h

theorem array_dec_toList {n : Nat} (v : Vector UInt8 n) : (Codec.array n).dec v.toList = v :=
  (Codec.array n).dec_enc v

@[simp] theorem length_u8_enc (x : UInt8) : (Codec.u8.enc x).length = 1 := Codec.u8.enc_length x

@[simp] theorem length_u32_enc (x : UInt32) : (Codec.u32.enc x).length = 4 :=
  Codec.u32.enc_length x

@[simp] theorem length_u64_enc (x : UInt64) : (Codec.u64.enc x).length = 8 :=
  Codec.u64.enc_length x

@[simp] theorem u8_dec_enc (x : UInt8) : Codec.u8.dec (Codec.u8.enc x) = x := Codec.u8.dec_enc x

@[simp] theorem u32_dec_enc (x : UInt32) : Codec.u32.dec (Codec.u32.enc x) = x :=
  Codec.u32.dec_enc x

@[simp] theorem u64_dec_enc (x : UInt64) : Codec.u64.dec (Codec.u64.enc x) = x :=
  Codec.u64.dec_enc x

theorem u64_enc_dec {b : Bytes} (h : b.length = 8) : Codec.u64.enc (Codec.u64.dec b) = b :=
  Codec.u64.enc_dec b h

/-- One field after the other. -/
def Codec.prod {α β : Type} (c : Codec α) (d : Codec β) : Codec (α × β) where
  width := c.width + d.width
  enc p := c.enc p.1 ++ d.enc p.2
  dec b := (c.dec (slice b 0 c.width), d.dec (slice b c.width (c.width + d.width)))
  enc_length p := by simp [c.enc_length, d.enc_length]
  dec_enc p := by
    rw [slice_append_left (Nat.le_of_eq (c.enc_length _).symm), slice_full (c.enc_length _),
      slice_append_right (Nat.le_of_eq (c.enc_length _)), c.enc_length, Nat.sub_self,
      Nat.add_sub_cancel_left, slice_full (d.enc_length _), c.dec_enc, d.dec_enc]
  enc_dec b h := by
    rw [c.enc_dec _ (by rw [length_slice _ _ _ (by omega)]; omega),
      d.enc_dec _ (by rw [length_slice _ _ _ (by omega)]; omega),
      slice_append_slice (Nat.zero_le _) (Nat.le_add_right _ _), slice_full h]

/-- A record over the tuple of its fields. -/
def Codec.iso {α β : Type} (c : Codec α) (f : α → β) (g : β → α) (hfg : ∀ b, f (g b) = b)
    (hgf : ∀ a, g (f a) = a) : Codec β where
  width := c.width
  enc b := c.enc (g b)
  dec bs := f (c.dec bs)
  enc_length _ := c.enc_length _
  dec_enc b := by rw [c.dec_enc, hfg]
  enc_dec bs h := by rw [hgf, c.enc_dec bs h]

/-- The same values with their bytes in reverse order: big-endian words. -/
def Codec.reverse {α : Type} (c : Codec α) : Codec α where
  width := c.width
  enc a := (c.enc a).reverse
  dec b := c.dec b.reverse
  enc_length a := by rw [List.length_reverse, c.enc_length]
  dec_enc a := by rw [List.reverse_reverse, c.dec_enc]
  enc_dec b h := by rw [c.enc_dec _ (by rw [List.length_reverse, h]), List.reverse_reverse]

@[simp] theorem width_u8 : Codec.u8.width = 1 := rfl
@[simp] theorem width_u32 : Codec.u32.width = 4 := rfl
@[simp] theorem width_u64 : Codec.u64.width = 8 := rfl
@[simp] theorem width_array (n : Nat) : (Codec.array n).width = n := rfl

@[simp] theorem width_prod {α β : Type} (c : Codec α) (d : Codec β) :
    (c.prod d).width = c.width + d.width := rfl

@[simp] theorem width_reverse {α : Type} (c : Codec α) : c.reverse.width = c.width := rfl

@[simp] theorem width_iso {α β : Type} (c : Codec α) (f : α → β) (g : β → α)
    (hfg : ∀ b, f (g b) = b) (hgf : ∀ a, g (f a) = a) : (c.iso f g hfg hgf).width = c.width := rfl

/-! ## Exact formats -/

/-- `toBytes` and `parse` are the two directions of a bijection between `α` and the byte strings
of length `n`, and `parse` refuses every other byte string. -/
structure ExactFormat {α ε : Type} (n : Nat) (toBytes : α → Bytes) (parse : Bytes → Except ε α) :
    Prop where
  parse_toBytes : ∀ a, parse (toBytes a) = .ok a
  parse_iff : ∀ b, (∃ a, parse b = .ok a) ↔ b.length = n
  toBytes_parse : ∀ b a, parse b = .ok a → toBytes a = b

theorem ExactFormat.injective {α ε : Type} {n : Nat} {toBytes : α → Bytes}
    {parse : Bytes → Except ε α} (h : ExactFormat n toBytes parse) :
    Function.Injective toBytes := by
  intro a a' heq
  have ha := h.parse_toBytes a
  rw [heq, h.parse_toBytes a'] at ha
  exact (Except.ok.inj ha).symm

/-- A reader that accepts exactly the encodings of a codec. -/
theorem Codec.exactFormat {α ε : Type} (c : Codec α) {toBytes : α → Bytes}
    {parse : Bytes → Except ε α} (hto : ∀ a, toBytes a = c.enc a)
    (hparse : ∀ {b a}, parse b = .ok a ↔ b = c.enc a) : ExactFormat c.width toBytes parse where
  parse_toBytes a := hparse.2 (hto a)
  parse_iff b := by
    constructor
    · rintro ⟨a, ha⟩
      rw [hparse.1 ha, c.enc_length]
    · intro h
      exact ⟨c.dec b, hparse.2 (c.enc_dec b h).symm⟩
  toBytes_parse b a h := by rw [hto, hparse.1 h]

/-! ## Lists of elements -/

section Lists

variable {α : Type} (c : Codec α)

def encodeList (l : List α) : Bytes := l.flatMap c.enc

/-- The elements of a byte string, each read at its own multiple of the width. -/
def decodeList (b : Bytes) : List α :=
  (List.range (b.length / c.width)).map fun i =>
    c.dec (slice b (i * c.width) ((i + 1) * c.width))

theorem length_encodeList (l : List α) : (encodeList c l).length = l.length * c.width := by
  induction l with
  | nil => simp [encodeList]
  | cons a l ih =>
    simp only [encodeList] at ih
    simp [encodeList, c.enc_length, ih, Nat.add_mul, Nat.add_comm]

/-- Element `i` of the encoding sits at offset `i * width`. -/
theorem slice_encodeList : ∀ (l : List α) (i : Nat) (hi : i < l.length),
    slice (encodeList c l) (i * c.width) ((i + 1) * c.width) = c.enc l[i]
  | a :: l, 0, _ => by
    show slice (c.enc a ++ encodeList c l) _ _ = _
    rw [slice_append_left (by simp [c.enc_length]), Nat.zero_mul, Nat.zero_add, Nat.one_mul,
      slice_full (c.enc_length a)]
    rfl
  | a :: l, i + 1, hi => by
    show slice (c.enc a ++ encodeList c l) _ _ = _
    have hoff : ∀ j, (j + 1) * c.width - c.width = j * c.width := fun j => by
      rw [Nat.add_mul, Nat.one_mul, Nat.add_sub_cancel]
    rw [slice_append_right (by rw [c.enc_length, Nat.add_mul, Nat.one_mul]; omega), c.enc_length,
      hoff, hoff]
    exact slice_encodeList l i (by simpa using hi)

/-- **Lists round-trip.** -/
theorem decodeList_encodeList (hw : 0 < c.width) (l : List α) :
    decodeList c (encodeList c l) = l := by
  apply List.ext_getElem
  · simp [decodeList, length_encodeList, Nat.mul_div_cancel _ hw]
  · intro i h1 h2
    simp only [decodeList, List.getElem_map, List.getElem_range]
    rw [slice_encodeList c l i h2, c.dec_enc]

theorem slices_flatten {w : Nat} (b : Bytes) (n : Nat) :
    (List.range n).flatMap (fun i => slice b (i * w) ((i + 1) * w)) = slice b 0 (n * w) := by
  induction n with
  | zero => simp [slice]
  | succ n ih =>
    have hle : n * w ≤ (n + 1) * w := Nat.mul_le_mul_right w (Nat.le_succ n)
    rw [List.range_succ, List.flatMap_append, ih]
    simp only [List.flatMap_cons, List.flatMap_nil, List.append_nil]
    exact slice_append_slice (Nat.zero_le _) hle

theorem encodeList_decodeList {b : Bytes} (h : c.width ∣ b.length) :
    encodeList c (decodeList c b) = b := by
  have hlen : b.length / c.width * c.width = b.length := Nat.div_mul_cancel h
  have henc : ∀ i ∈ List.range (b.length / c.width),
      c.enc (c.dec (slice b (i * c.width) ((i + 1) * c.width))) =
        slice b (i * c.width) ((i + 1) * c.width) := by
    intro i hi
    have hi' : (i + 1) * c.width ≤ b.length := by
      rw [← hlen]
      exact Nat.mul_le_mul_right _ (List.mem_range.1 hi)
    apply c.enc_dec
    rw [length_slice _ _ _ hi', Nat.add_mul, Nat.one_mul, Nat.add_sub_cancel_left]
  rw [encodeList, decodeList, List.flatMap_map, List.flatMap_congr henc, slices_flatten, hlen]
  exact slice_full rfl

/-- A loop that copies element `i` to offset `base + i * width` writes the encoded list. -/
theorem foldl_put (base : Nat) : ∀ (l : List α) (k : Nat) (done todo : Bytes),
    done.length = base + k * c.width →
    (l.zipIdx k).foldl (fun out p => put out (base + p.2 * c.width) (base + (p.2 + 1) * c.width)
      (c.enc p.1)) (done ++ todo) = done ++ encodeList c l ++ todo.drop (l.length * c.width) := by
  intro l
  induction l with
  | nil => simp [encodeList]
  | cons a l ih =>
    intro k done todo h
    have hnext : (done ++ c.enc a).length = base + (k + 1) * c.width := by
      rw [List.length_append, c.enc_length, h, Nat.add_mul, Nat.one_mul, Nat.add_assoc]
    rw [List.zipIdx_cons, List.foldl_cons, put_next h.symm (by
      rw [c.enc_length, Nat.add_mul, Nat.one_mul, Nat.add_assoc]),
      ih (k + 1) _ _ hnext, c.enc_length, List.drop_drop]
    simp only [encodeList, List.flatMap_cons, List.append_assoc, List.length_cons, Nat.add_mul,
      Nat.one_mul, Nat.add_comm]

/-- `n` elements one after the other. -/
def Codec.vector (n : Nat) : Codec (Vector α n) where
  width := n * c.width
  enc v := encodeList c v.toList
  dec b := Vector.ofFn fun i => c.dec (slice b (i * c.width) ((i + 1) * c.width))
  enc_length v := by rw [length_encodeList, Vector.length_toList]
  dec_enc v := by
    ext i hi
    rw [Vector.getElem_ofFn, slice_encodeList c v.toList i (by simpa using hi), c.dec_enc,
      Vector.getElem_toList]
  enc_dec b h := by
    have henc : ∀ i ∈ List.range n,
        c.enc (c.dec (slice b (i * c.width) ((i + 1) * c.width))) =
          slice b (i * c.width) ((i + 1) * c.width) := by
      intro i hi
      have hi' : (i + 1) * c.width ≤ b.length := by
        rw [h]
        exact Nat.mul_le_mul_right _ (List.mem_range.1 hi)
      apply c.enc_dec
      rw [length_slice _ _ _ hi', Nat.add_mul, Nat.one_mul, Nat.add_sub_cancel_left]
    have hlist : (Vector.ofFn fun i : Fin n =>
        c.dec (slice b (i * c.width) ((i + 1) * c.width))).toList =
        (List.range n).map fun i => c.dec (slice b (i * c.width) ((i + 1) * c.width)) := by
      apply List.ext_getElem
      · simp
      · intro i h1 h2
        simp
    rw [hlist, encodeList, List.flatMap_map, List.flatMap_congr henc, slices_flatten, ← h]
    exact slice_full rfl

@[simp] theorem width_vector (n : Nat) : (Codec.vector c n).width = n * c.width := rfl

end Lists

end ByteCodec
