import Mathlib.Tactic
import Mathlib.Data.List.Sort

/-!
# Range queries on keyed rows

A table is a list of rows in no particular order, each with an integer key.  `select` is the
query "keys in `[lo, hi)`, in ascending order".

* `OnePer` — one row for every key below a bound, whatever other rows there are;
* `select_eq` — inside the bound the query returns the rows of the range in order;
* `select_min` — above the last key it returns nothing.
-/

set_option autoImplicit false

namespace KeyedTable

variable {α : Type} (key : α → Int)

/-- The rows with keys in `[lo, hi)`, in ascending order. -/
def select (table : List α) (lo hi : Int) : List α :=
  (table.filter fun a => decide (lo ≤ key a ∧ key a < hi)).mergeSort
    fun a b => decide (key a ≤ key b)

/-- Every key below `n` has exactly one row. -/
def OnePer (table : List α) (row : Nat → α) (n : Nat) : Prop :=
  ∀ k < n, (table.filter fun a => decide (key a = k)) = [row k]

variable {key} {table : List α} {row : Nat → α} {n : Nat}

/-- A query returns rows of the table with keys in the range. -/
theorem mem_select {lo hi : Int} {a : α} :
    a ∈ select key table lo hi ↔ a ∈ table ∧ lo ≤ key a ∧ key a < hi := by
  rw [select, List.mem_mergeSort, List.mem_filter, decide_eq_true_eq]

/-- Nothing is selected above the last key. -/
theorem select_min (hmax : ∀ a ∈ table, key a < n) (lo hi : Nat) :
    select key table lo hi = select key table lo (min hi n : Nat) := by
  unfold select
  congr 1
  refine List.filter_congr fun a ha => ?_
  have hlt := hmax a ha
  rw [decide_eq_decide]
  omega

theorem OnePer.mono (h : OnePer key table row n) {m : Nat} (hm : m ≤ n) :
    OnePer key table row m := fun k hk => h k (lt_of_lt_of_le hk hm)

/-- A row is found by its key. -/
theorem OnePer.find_eq (h : OnePer key table row n) {k : Nat} (hk : k < n) :
    table.find? (fun a => decide (key a = k)) = some (row k) := by
  rw [← List.head?_filter, h k hk]
  rfl

theorem OnePer.key_row (h : OnePer key table row n) {k : Nat} (hk : k < n) : key (row k) = k := by
  have hmem : row k ∈ table.filter fun a => decide (key a = k) := by
    rw [h k hk]
    exact List.mem_singleton_self _
  simpa using (List.mem_filter.1 hmem).2

/-- Filtering by a disjunction of exclusive tests. -/
theorem filter_or_perm {p q : α → Bool} {l : List α}
    (hpq : ∀ a, p a = true → q a = true → False) :
    (l.filter fun a => p a || q a).Perm (l.filter p ++ l.filter q) := by
  induction l with
  | nil => exact List.Perm.refl _
  | cons a l ih =>
    by_cases hp : p a = true
    · have hq : ¬ q a = true := fun hq => hpq a hp hq
      simp only [List.filter_cons, hp, hq, Bool.true_or, if_true, List.cons_append]
      exact ih.cons a
    · by_cases hq : q a = true
      · simp only [List.filter_cons, hp, hq, Bool.or_true, if_true]
        exact (ih.cons a).trans List.perm_middle.symm
      · simp only [List.filter_cons, hp, hq, Bool.or_self]
        exact ih

/-- The rows of a range, before sorting. -/
theorem OnePer.filter_perm (h : OnePer key table row n) (lo : Nat) : ∀ len : Nat, lo + len ≤ n →
    (table.filter fun a => decide ((lo : Int) ≤ key a ∧ key a < (lo + len : Nat))).Perm
      ((List.range' lo len).map row) := by
  intro len
  induction len with
  | zero =>
    intro _
    rw [List.filter_eq_nil_iff.2 fun a _ => by simp]
    exact List.Perm.refl _
  | succ len ih =>
    intro hlen
    have hsplit : ∀ a, decide ((lo : Int) ≤ key a ∧ key a < (lo + (len + 1) : Nat)) =
        (decide ((lo : Int) ≤ key a ∧ key a < (lo + len : Nat)) ||
          decide (key a = (lo + len : Nat))) := fun a => by
      rw [← Bool.decide_or]
      congr 1
      apply propext
      omega
    simp only [hsplit]
    rw [List.range'_concat, List.map_append]
    have hlast := h (lo + len) (by omega)
    refine (filter_or_perm ?_).trans ((ih (by omega)).append (List.Perm.of_eq ?_))
    · intro a ha hb
      simp only [decide_eq_true_eq] at ha hb
      omega
    · rw [hlast]
      simp

/-- **A range inside the bound returns its rows in order.** -/
theorem OnePer.select_eq (h : OnePer key table row n) {lo len : Nat} (hlen : lo + len ≤ n) :
    select key table lo (lo + len : Nat) = (List.range' lo len).map row := by
  have hperm := (List.mergeSort_perm _ fun a b => decide (key a ≤ key b)).trans
    (h.filter_perm lo len hlen)
  have hsorted : (select key table lo (lo + len : Nat)).Pairwise fun a b => key a ≤ key b := by
    refine (List.pairwise_mergeSort ?_ ?_ _).imp fun {a b} hab => ?_
    · intro a b c hab hbc
      simp only [decide_eq_true_eq] at *
      omega
    · intro a b
      simp only [Bool.or_eq_true, decide_eq_true_eq]
      omega
    · simpa only [decide_eq_true_eq] using hab
  have hrows : ((List.range' lo len).map row).Pairwise fun a b => key a ≤ key b := by
    rw [List.pairwise_map]
    refine (List.pairwise_lt_range' (s := lo) (n := len)).imp_of_mem fun {i j} hi hj hij => ?_
    rw [h.key_row (by have := List.mem_range'_1.1 hi; omega),
      h.key_row (by have := List.mem_range'_1.1 hj; omega)]
    omega
  refine hperm.eq_of_pairwise (fun a b ha hb hab hba => ?_) hsorted hrows
  have ha' := hperm.subset ha
  obtain ⟨i, hi, rfl⟩ := List.mem_map.1 ha'
  obtain ⟨j, hj, rfl⟩ := List.mem_map.1 hb
  have hi' := List.mem_range'_1.1 hi
  have hj' := List.mem_range'_1.1 hj
  rw [h.key_row (by omega), h.key_row (by omega)] at hab hba
  rw [show i = j by omega]

end KeyedTable
