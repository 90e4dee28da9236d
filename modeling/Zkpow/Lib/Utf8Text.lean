import Mathlib.Tactic
import Mathlib.Data.List.Forall2

/-!
# Texts measured in bytes

A UTF-8 text is a list of characters of one to four bytes each.  Its length and the bounds of a
slice count bytes, and a slice that starts or ends inside a character does not exist.

* `slice_eq_some` — the slices of a text are its infixes, by what stands before them;
* `forall₂_slice_iff` — slices of one width, one after the other, all exist exactly if the text is
  a concatenation of texts of that width, and these are then the slices;
* `slice_of_ascii` — where every character is one byte, slicing is `drop` and `take`.
-/

set_option autoImplicit false

namespace Utf8Text

/-- The length in bytes. -/
def byteLen : List Char → Nat
  | [] => 0
  | c :: text => c.utf8Size + byteLen text

@[simp] theorem byteLen_nil : byteLen [] = 0 := rfl

@[simp] theorem byteLen_cons (c : Char) (text : List Char) :
    byteLen (c :: text) = c.utf8Size + byteLen text := rfl

@[simp] theorem byteLen_append : ∀ text rest : List Char,
    byteLen (text ++ rest) = byteLen text + byteLen rest
  | [], rest => (Nat.zero_add _).symm
  | c :: text, rest => by
    rw [List.cons_append, byteLen_cons, byteLen_cons, byteLen_append text rest, Nat.add_assoc]

theorem eq_nil_of_byteLen_eq_zero {text : List Char} (h : byteLen text = 0) : text = [] := by
  cases text with
  | nil => rfl
  | cons c text =>
    have hpos := c.utf8Size_pos
    rw [byteLen_cons] at h
    omega

/-- The text before and after a byte offset; `none` inside a character and past the end. -/
def splitAt : List Char → Nat → Option (List Char × List Char)
  | text, 0 => some ([], text)
  | [], _ + 1 => none
  | c :: text, n + 1 =>
    if c.utf8Size ≤ n + 1 then
      (splitAt text (n + 1 - c.utf8Size)).map fun parts => (c :: parts.1, parts.2)
    else none

theorem splitAt_append : ∀ text rest : List Char, splitAt (text ++ rest) (byteLen text) =
    some (text, rest)
  | [], rest => by cases rest <;> rfl
  | c :: text, rest => by
    have hpos := c.utf8Size_pos
    obtain ⟨n, hn⟩ : ∃ n, byteLen (c :: text) = n + 1 :=
      ⟨byteLen (c :: text) - 1, by rw [byteLen_cons]; omega⟩
    have hrest : n + 1 - c.utf8Size = byteLen text := by
      rw [byteLen_cons] at hn
      omega
    rw [hn, List.cons_append, splitAt, if_pos (by rw [byteLen_cons] at hn; omega), hrest,
      splitAt_append text rest]
    rfl

theorem splitAt_eq_some : ∀ {text : List Char} {n : Nat} {before after : List Char},
    splitAt text n = some (before, after) ↔ text = before ++ after ∧ byteLen before = n := by
  intro text n before after
  constructor
  · intro h
    induction text generalizing n before after with
    | nil =>
      cases n with
      | zero => cases h; exact ⟨rfl, rfl⟩
      | succ n => cases h
    | cons c text ih =>
      cases n with
      | zero => cases h; exact ⟨rfl, rfl⟩
      | succ n =>
        rw [splitAt] at h
        split at h
        · rename_i hfit
          obtain ⟨parts, hsplit, hparts⟩ := Option.map_eq_some_iff.1 h
          obtain ⟨rfl, rfl⟩ := Prod.mk.inj hparts
          obtain ⟨htext, hlen⟩ := ih hsplit
          exact ⟨by rw [List.cons_append, ← htext], by rw [byteLen_cons]; omega⟩
        · cases h
  · rintro ⟨rfl, rfl⟩
    exact splitAt_append before after

/-- `&text[lo..hi]`; `none` where it panics. -/
def slice (text : List Char) (lo hi : Nat) : Option (List Char) := do
  let outer ← splitAt text hi
  let inner ← splitAt outer.1 lo
  return inner.2

/-- **The slices of a text.** -/
theorem slice_eq_some {text piece : List Char} {lo hi : Nat} : slice text lo hi = some piece ↔
    ∃ before after, text = before ++ piece ++ after ∧ byteLen before = lo ∧
      byteLen before + byteLen piece = hi := by
  unfold slice
  simp only [Option.bind_eq_bind, Option.bind_eq_some_iff, Option.pure_def, Option.some.injEq]
  constructor
  · rintro ⟨outer, houter, inner, hinner, rfl⟩
    obtain ⟨rfl, hhi⟩ := splitAt_eq_some.1 houter
    obtain ⟨hfront, hlo⟩ := splitAt_eq_some.1 hinner
    rw [hfront, byteLen_append] at hhi
    exact ⟨inner.1, outer.2, by rw [← hfront], hlo, hhi⟩
  · rintro ⟨before, after, rfl, rfl, hhi⟩
    exact ⟨(before ++ piece, after), splitAt_eq_some.2 ⟨rfl, by rw [byteLen_append, hhi]⟩,
      (before, piece), splitAt_eq_some.2 ⟨rfl, rfl⟩, rfl⟩

/-- A slice behind a known text is one of the rest. -/
theorem slice_append (front rest : List Char) (lo hi : Nat) :
    slice (front ++ rest) (byteLen front + lo) (byteLen front + hi) = slice rest lo hi := by
  refine Option.ext fun piece => ?_
  rw [slice_eq_some, slice_eq_some]
  constructor
  · rintro ⟨before, after, htext, hlo, hhi⟩
    -- both texts are cut at the length of the one in front
    rw [List.append_assoc] at htext
    obtain ⟨middle, rfl⟩ : ∃ middle, before = front ++ middle := by
      rcases List.append_eq_append_iff.1 htext with ⟨middle, hbefore, -⟩ | ⟨middle, hfront, -⟩
      · exact ⟨middle, hbefore⟩
      · have hnil : middle = [] := eq_nil_of_byteLen_eq_zero (by
          rw [hfront, byteLen_append] at hlo
          omega)
        exact ⟨[], by rw [hfront, hnil, List.append_nil, List.append_nil]⟩
    rw [byteLen_append] at hlo hhi
    rw [List.append_assoc, List.append_cancel_left_eq] at htext
    exact ⟨middle, after, by rw [htext, List.append_assoc], by omega, by omega⟩
  · rintro ⟨before, after, rfl, rfl, rfl⟩
    refine ⟨front ++ before, after, by simp only [List.append_assoc], byteLen_append _ _, ?_⟩
    rw [byteLen_append]
    omega

/-! ## Cutting a text into equal pieces -/

/-- The text is a concatenation of texts of `width` bytes. -/
structure Cuts (width : Nat) (text : List Char) (pieces : List (List Char)) : Prop where
  flatten : pieces.flatten = text
  width_eq : ∀ piece ∈ pieces, byteLen piece = width

variable {width : Nat} {text : List Char} {pieces : List (List Char)}

theorem cuts_nil : Cuts width text [] ↔ text = [] :=
  ⟨fun h => h.flatten.symm, fun h => ⟨h.symm, fun _ hmem => nomatch hmem⟩⟩

theorem cuts_cons {piece : List Char} : Cuts width text (piece :: pieces) ↔
    byteLen piece = width ∧ ∃ rest, text = piece ++ rest ∧ Cuts width rest pieces := by
  constructor
  · intro h
    exact ⟨h.width_eq piece List.mem_cons_self, pieces.flatten, h.flatten.symm, rfl,
      fun p hp => h.width_eq p (List.mem_cons_of_mem _ hp)⟩
  · rintro ⟨hpiece, rest, rfl, h⟩
    refine ⟨by rw [List.flatten_cons, h.flatten], fun p hp => ?_⟩
    rcases List.mem_cons.1 hp with rfl | hp
    · exact hpiece
    · exact h.width_eq p hp

theorem Cuts.byteLen_eq (h : Cuts width text pieces) : byteLen text = width * pieces.length := by
  induction pieces generalizing text with
  | nil => rw [cuts_nil.1 h, byteLen_nil, List.length_nil, Nat.mul_zero]
  | cons piece pieces ih =>
    obtain ⟨hpiece, rest, rfl, hrest⟩ := cuts_cons.1 h
    rw [byteLen_append, ih hrest, hpiece, List.length_cons, Nat.mul_succ, Nat.add_comm]

/-- Behind a piece of the width, every slice of the text is one of the rest. -/
theorem slice_append_succ {front : List Char} (hfront : byteLen front = width)
    (rest : List Char) (i : Nat) :
    slice (front ++ rest) (width * (i + 1)) (width * (i + 1) + width) =
      slice rest (width * i) (width * i + width) := by
  have hoffset : width * (i + 1) = byteLen front + width * i := by
    rw [Nat.mul_succ, hfront, Nat.add_comm]
  rw [hoffset, Nat.add_assoc, slice_append]

/-- **Slices of one width, one after the other**, exist exactly if the text can be cut into pieces
of that width. -/
theorem forall₂_slice_iff : ∀ {n : Nat} {text : List Char} (pieces : List (List Char)),
    byteLen text = width * n →
    (List.Forall₂ (fun i piece => slice text (width * i) (width * i + width) = some piece)
      (List.range n) pieces ↔ Cuts width text pieces ∧ pieces.length = n) := by
  intro n
  induction n with
  | zero =>
    intro text pieces hlen
    rw [List.range_zero, List.forall₂_nil_left_iff]
    constructor
    · rintro rfl
      exact ⟨cuts_nil.2 (eq_nil_of_byteLen_eq_zero hlen), rfl⟩
    · exact fun h => List.eq_nil_of_length_eq_zero h.2
  | succ n ih =>
    intro text pieces hlen
    rw [List.range_succ_eq_map]
    have hrest : ∀ {front rest : List Char}, byteLen front = width → text = front ++ rest →
        byteLen rest = width * n := by
      rintro front rest hfront rfl
      rw [byteLen_append, hfront, Nat.mul_succ, Nat.add_comm] at hlen
      exact Nat.add_right_cancel hlen
    constructor
    · intro h
      obtain ⟨piece, tail, hpiece, htail, rfl⟩ := List.forall₂_cons_left_iff.1 h
      obtain ⟨before, rest, htext, hbefore, hwidth⟩ := slice_eq_some.1 hpiece
      obtain rfl := eq_nil_of_byteLen_eq_zero (hbefore.trans (Nat.mul_zero _))
      have hfront : byteLen piece = width := by
        rw [byteLen_nil, Nat.mul_zero, Nat.zero_add, Nat.zero_add] at hwidth
        exact hwidth
      rw [List.forall₂_map_left_iff, htext, List.nil_append] at htail
      simp only [Nat.succ_eq_add_one, slice_append_succ hfront] at htail
      obtain ⟨hcuts, hcount⟩ := (ih _ (hrest hfront htext)).1 htail
      exact ⟨cuts_cons.2 ⟨hfront, rest, htext, hcuts⟩, by rw [List.length_cons, hcount]⟩
    · rintro ⟨hcuts, hcount⟩
      cases pieces with
      | nil => cases hcount
      | cons piece pieces =>
        obtain ⟨hfront, rest, htext, hcuts⟩ := cuts_cons.1 hcuts
        refine .cons (slice_eq_some.2 ⟨[], rest, htext, rfl, ?_⟩) ?_
        · rw [hfront, byteLen_nil, Nat.mul_zero]
        · rw [List.forall₂_map_left_iff, htext]
          simp only [Nat.succ_eq_add_one, slice_append_succ hfront]
          exact (ih _ (hrest hfront htext)).2 ⟨hcuts, Nat.succ_injective hcount⟩

/-! ## Texts of one-byte characters -/

theorem byteLen_of_ascii : ∀ {text : List Char}, (∀ c ∈ text, c.utf8Size = 1) →
    byteLen text = text.length
  | [], _ => rfl
  | c :: text, h => by
    rw [byteLen_cons, h c List.mem_cons_self,
      byteLen_of_ascii fun d hd => h d (List.mem_cons_of_mem _ hd), List.length_cons, Nat.add_comm]

/-- Where every character is one byte, a slice counts characters. -/
theorem slice_of_ascii {text : List Char} (h : ∀ c ∈ text, c.utf8Size = 1) {lo hi : Nat}
    (hlo : lo ≤ hi) (hhi : hi ≤ text.length) :
    slice text lo hi = some ((text.take hi).drop lo) := by
  have htake : ∀ n, byteLen (text.take n) = min n text.length := fun n => by
    rw [byteLen_of_ascii fun c hc => h c (List.mem_of_mem_take hc), List.length_take]
  have hfront : (text.take hi).take lo = text.take lo := by
    rw [List.take_take, Nat.min_eq_left hlo]
  refine slice_eq_some.2 ⟨text.take lo, text.drop hi, ?_, ?_, ?_⟩
  · rw [← hfront, List.take_append_drop, List.take_append_drop]
  · rw [htake, Nat.min_eq_left (hlo.trans hhi)]
  · rw [← byteLen_append, ← hfront, List.take_append_drop, htake, Nat.min_eq_left hhi]

end Utf8Text
