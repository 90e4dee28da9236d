import Mathlib.Tactic

/-!
# Hash-linked chains

Blocks that carry the digest of the block before them.  Nothing is assumed of the hash: two chains
with the same tip digest either are one chain, as far back as the shorter one goes, or contain two
different blocks of one digest.

* `suffix_or_collision` — the tip digest commits to the chain below it.
-/

set_option autoImplicit false

namespace HashChain

variable {B D : Type} (hash : B → D) (parent : B → D)

/-- Each block carries the digest of the block before it, the first one the given digest. -/
def Linked : D → List B → Prop
  | _, [] => True
  | d, b :: bs => parent b = d ∧ Linked (hash b) bs

/-- The digest of the last block; the given one when there is no block. -/
def tip (d : D) (bs : List B) : D := bs.foldl (fun _ b => hash b) d

/-- Two different blocks of the two lists have one digest. -/
def Collision (xs ys : List B) : Prop := ∃ x ∈ xs, ∃ y ∈ ys, x ≠ y ∧ hash x = hash y

variable {hash parent}

@[simp] theorem tip_nil (d : D) : tip hash d [] = d := rfl

@[simp] theorem tip_cons (d : D) (b : B) (bs : List B) :
    tip hash d (b :: bs) = tip hash (hash b) bs := rfl

@[simp] theorem tip_concat (d : D) (bs : List B) (b : B) : tip hash d (bs ++ [b]) = hash b := by
  simp [tip]

theorem linked_concat {d : D} {bs : List B} {b : B} :
    Linked hash parent d (bs ++ [b]) ↔ Linked hash parent d bs ∧ parent b = tip hash d bs := by
  induction bs generalizing d with
  | nil => simp [Linked]
  | cons a bs ih => rw [List.cons_append, Linked, Linked, ih, tip_cons, and_assoc]

theorem Collision.mono {xs xs' ys ys' : List B} (h : Collision hash xs ys) (hx : xs ⊆ xs')
    (hy : ys ⊆ ys') : Collision hash xs' ys' := by
  obtain ⟨x, hxm, y, hym, hne, heq⟩ := h
  exact ⟨x, hx hxm, y, hy hym, hne, heq⟩

/-- **The tip commits to the chain.**  Of two chains with one tip digest the longer one ends with
the shorter one, or they collide. -/
theorem suffix_or_collision {d d' : D} {xs ys : List B} (hlen : xs.length ≤ ys.length)
    (hx : Linked hash parent d xs) (hy : Linked hash parent d' ys)
    (htip : tip hash d xs = tip hash d' ys) :
    (∃ zs, ys = zs ++ xs ∧ tip hash d' zs = d) ∨ Collision hash xs ys := by
  induction xs using List.reverseRecOn generalizing ys with
  | nil => exact .inl ⟨ys, by simp, htip.symm⟩
  | append_singleton xs x ih =>
    rcases List.eq_nil_or_concat ys with rfl | ⟨ys, y, rfl⟩
    · simp at hlen
    rw [List.concat_eq_append] at hlen hy htip ⊢
    rw [tip_concat, tip_concat] at htip
    by_cases hxy : x = y
    · subst hxy
      obtain ⟨hx', hpx⟩ := linked_concat.1 hx
      obtain ⟨hy', hpy⟩ := linked_concat.1 hy
      rcases ih (by simpa using hlen) hx' hy' (hpx.symm.trans hpy) with ⟨zs, rfl, hzs⟩ | hcol
      · exact .inl ⟨zs, by rw [List.append_assoc], hzs⟩
      · exact .inr (hcol.mono (List.subset_append_left _ _) (List.subset_append_left _ _))
    · exact .inr ⟨x, by simp, y, by simp, hxy, htip⟩

/-- Chains of one length with one tip digest are equal and start at one digest, or they collide. -/
theorem eq_or_collision {d d' : D} {xs ys : List B} (hlen : xs.length = ys.length)
    (hx : Linked hash parent d xs) (hy : Linked hash parent d' ys)
    (htip : tip hash d xs = tip hash d' ys) : (xs = ys ∧ d = d') ∨ Collision hash xs ys := by
  refine (suffix_or_collision hlen.le hx hy htip).imp_left ?_
  rintro ⟨zs, rfl, hd⟩
  obtain rfl : zs = [] := by
    rw [List.length_append] at hlen
    exact List.length_eq_zero_iff.1 (by omega)
  exact ⟨(List.nil_append xs).symm, hd.symm⟩

end HashChain
