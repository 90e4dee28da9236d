import Mathlib.Tactic
import Mathlib.Data.List.Sort

/-!
# Rank statistics by counting

The `k`-th smallest entry of a list, and its characterisation without sorting: `x` is the
`k`-th smallest exactly when at most `k` entries are below `x` and more than `k` entries are
not above it (`counts_iff_kthSmallest`).  The counts depend on the list only up to order
(`kthSmallest_perm`).
-/

set_option autoImplicit false

namespace Rank

variable {α : Type} [LinearOrder α]

/-- Entries strictly below `x`. -/
def below (l : List α) (x : α) : Nat := l.countP (fun y => decide (y < x))

/-- Entries equal to `x`. -/
def equal (l : List α) (x : α) : Nat := l.countP (fun y => decide (y = x))

/-- The `k`-th smallest entry, counted from zero; `none` when there are not that many. -/
def kthSmallest (l : List α) (k : Nat) : Option α := (l.insertionSort (· ≤ ·))[k]?

/-- `x` has rank `k`: at most `k` entries are below it, more than `k` are not above it. -/
def HasRank (l : List α) (k : Nat) (x : α) : Prop := below l x ≤ k ∧ k < below l x + equal l x

instance (l : List α) (k : Nat) (x : α) : Decidable (HasRank l k x) := by
  unfold HasRank; exact inferInstance

theorem below_cons (a : α) (l : List α) (x : α) :
    below (a :: l) x = below l x + if a < x then 1 else 0 := by
  simp [below, List.countP_cons]

theorem equal_cons (a : α) (l : List α) (x : α) :
    equal (a :: l) x = equal l x + if a = x then 1 else 0 := by
  simp [equal, List.countP_cons]

theorem below_perm {l l' : List α} (h : l.Perm l') (x : α) : below l x = below l' x :=
  h.countP_eq _

theorem equal_perm {l l' : List α} (h : l.Perm l') (x : α) : equal l x = equal l' x :=
  h.countP_eq _

theorem below_add_equal_le (l : List α) (x : α) : below l x + equal l x ≤ l.length := by
  induction l with
  | nil => simp [below, equal]
  | cons a l ih =>
    rw [below_cons, equal_cons, List.length_cons]
    rcases lt_trichotomy a x with h | h | h
    · simp [h, h.ne]; omega
    · simp [h]; omega
    · simp [h.not_gt, h.ne']; omega

theorem below_eq_zero {l : List α} {x : α} (h : ∀ y ∈ l, x ≤ y) : below l x = 0 := by
  simp only [below, List.countP_eq_zero, decide_eq_true_eq, not_lt]
  exact h

theorem equal_eq_zero {l : List α} {x : α} (h : ∀ y ∈ l, x < y) : equal l x = 0 := by
  simp only [equal, List.countP_eq_zero, decide_eq_true_eq]
  exact fun y hy => (h y hy).ne'

/-- On a sorted list the counts find the entry at position `k`. -/
theorem hasRank_sorted : ∀ {l : List α}, l.Pairwise (· ≤ ·) → ∀ (k : Nat) (x : α),
    HasRank l k x ↔ l[k]? = some x
  | [], _, k, x => by simp [HasRank, below, equal]
  | a :: l, hs, k, x => by
    obtain ⟨ha, hl⟩ := List.pairwise_cons.1 hs
    unfold HasRank
    rw [below_cons, equal_cons]
    rcases lt_trichotomy a x with hax | hax | hax
    · cases k with
      | zero => simp [hax, hax.ne]
      | succ k =>
        have ih := hasRank_sorted hl k x
        unfold HasRank at ih
        rw [List.getElem?_cons_succ, ← ih]
        simp only [hax, hax.ne, if_true, if_false]
        omega
    · subst hax
      have hb : below l a = 0 := below_eq_zero ha
      cases k with
      | zero => simp [hb]
      | succ k =>
        have ih := hasRank_sorted hl k a
        unfold HasRank at ih
        rw [List.getElem?_cons_succ, ← ih]
        simp only [lt_irrefl, if_true, if_false]
        omega
    · have hlt : ∀ y ∈ l, x < y := fun y hy => lt_of_lt_of_le hax (ha y hy)
      have hb : below l x = 0 := below_eq_zero fun y hy => (hlt y hy).le
      have he : equal l x = 0 := equal_eq_zero hlt
      have hne : (a :: l)[k]? ≠ some x := by
        intro h
        rcases List.mem_cons.1 (List.mem_of_getElem? h) with rfl | hm
        · exact lt_irrefl _ hax
        · exact lt_irrefl _ (hlt x hm)
      simp [hax.not_gt, hax.ne', hb, he, hne]

/-- **Counting decides the rank.** -/
theorem counts_iff_kthSmallest (l : List α) (k : Nat) (x : α) :
    HasRank l k x ↔ kthSmallest l k = some x := by
  have hp : (l.insertionSort (· ≤ ·)).Perm l := List.perm_insertionSort _ l
  have hs : (l.insertionSort (· ≤ ·)).Pairwise (· ≤ ·) := List.pairwise_insertionSort _ l
  unfold kthSmallest
  rw [← hasRank_sorted hs]
  unfold HasRank
  rw [below_perm hp, equal_perm hp]

theorem kthSmallest_perm {l l' : List α} (h : l.Perm l') (k : Nat) :
    kthSmallest l k = kthSmallest l' k := by
  apply Option.ext
  intro x
  rw [← counts_iff_kthSmallest, ← counts_iff_kthSmallest]
  unfold HasRank
  rw [below_perm h, equal_perm h]

theorem kthSmallest_isSome {l : List α} {k : Nat} (h : k < l.length) :
    ∃ x, kthSmallest l k = some x := by
  have hk : k < (l.insertionSort (· ≤ ·)).length := by rwa [List.length_insertionSort]
  exact ⟨_, List.getElem?_eq_getElem hk⟩

/-! ## Comparing entries by their ranks -/

theorem below_add_equal (l : List α) (x : α) :
    below l x + equal l x = l.countP (fun y => decide (y ≤ x)) := by
  induction l with
  | nil => rfl
  | cons a l ih =>
    rw [below_cons, equal_cons, List.countP_cons, ← ih]
    rcases lt_trichotomy a x with h | h | h
    · simp [h, h.ne, h.le]; omega
    · simp [h]; omega
    · simp [h.not_gt, h.ne', h.not_ge]

/-- An entry of rank `k` is at least every bound with at most `k` entries below it. -/
theorem HasRank.le {l : List α} {k : Nat} {x y : α} (h : HasRank l k x) (hy : below l y ≤ k) :
    y ≤ x := by
  by_contra hlt
  have hle : below l x + equal l x ≤ below l y := by
    rw [below_add_equal]
    exact List.countP_mono_left fun z _ hz => by
      simp only [decide_eq_true_eq] at hz ⊢
      exact lt_of_le_of_lt hz (not_le.1 hlt)
  have := h.2
  omega

/-- It exceeds every bound with at most `k` entries up to it. -/
theorem HasRank.lt {l : List α} {k : Nat} {x y : α} (h : HasRank l k x)
    (hy : below l y + equal l y ≤ k) : y < x := by
  by_contra hle
  have hmono : below l x + equal l x ≤ below l y + equal l y := by
    rw [below_add_equal, below_add_equal]
    exact List.countP_mono_left fun z _ hz => by
      simp only [decide_eq_true_eq] at hz ⊢
      exact le_trans hz (not_lt.1 hle)
  have := h.2
  omega

end Rank
