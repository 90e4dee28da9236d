import Mathlib.Tactic
import Zkpow.Lib.Rank
import Zkpow.Lib.RingWindow

/-!
# A clock of running medians

Entries are appended to a history, each above the upper median of the last `n` entries before it.
The median then never falls, and it rises with every half window of new entries, whatever the
entries are.

* `Rising` — a history extended by such entries;
* `Rising.le_median` — the median never falls;
* `Rising.lt_median` — half a window of entries raises it;
* `Rising.add_div_le` — so it rises by one for every half window.
-/

set_option autoImplicit false

namespace MedianWindow

open Rank RingWindow

variable {α : Type} [LinearOrder α] {n : Nat}

/-- The upper median of the last `n` entries. -/
def median (n : Nat) (hist : List α) : Option α :=
  kthSmallest (window n hist) ((window n hist).length / 2)

theorem hasRank_of_median {hist : List α} {m : α} (h : median n hist = some m) :
    HasRank (window n hist) ((window n hist).length / 2) m :=
  (counts_iff_kthSmallest _ _ _).2 h

theorem median_isSome {hist : List α} (hn : 0 < n) (hhist : hist ≠ []) :
    ∃ m, median n hist = some m := by
  have hlen := List.length_pos_iff.2 hhist
  refine kthSmallest_isSome ?_
  rw [length_window]
  omega

/-- Every new entry is above the median of the window before it. -/
def Rising (n : Nat) : List α → List α → Prop
  | _, [] => True
  | hist, a :: entries => (∀ m, median n hist = some m → m < a) ∧ Rising n (hist ++ [a]) entries

theorem rising_append {hist xs ys : List α} :
    Rising n hist (xs ++ ys) ↔ Rising n hist xs ∧ Rising n (hist ++ xs) ys := by
  induction xs generalizing hist with
  | nil => simp [Rising]
  | cons a xs ih =>
    rw [List.cons_append, Rising, Rising, ih, List.append_assoc, List.singleton_append, and_assoc]

/-! ## One entry -/

/-- An entry above the median does not lower it. -/
theorem median_concat_le {hist : List α} {a m m' : α} (h : median n hist = some m) (ha : m < a)
    (h' : median n (hist ++ [a]) = some m') : m ≤ m' := by
  refine (hasRank_of_median h').le ?_
  have hsub := (window_concat_sublist (n := n) hist a).countP_le (p := fun y => decide (y < m))
  have hbelow : below (window n hist ++ [a]) m = below (window n hist) m := by
    simp [below, ha.not_gt]
  have hrank := (hasRank_of_median h).1
  have hlen : (window n hist).length ≤ (window n (hist ++ [a])).length := by
    rw [length_window, length_window, List.length_append]
    omega
  calc below (window n (hist ++ [a])) m ≤ below (window n hist ++ [a]) m := hsub
    _ = below (window n hist) m := hbelow
    _ ≤ (window n hist).length / 2 := hrank
    _ ≤ (window n (hist ++ [a])).length / 2 := Nat.div_le_div_right hlen

/-! ## Many entries -/

/-- **The median never falls**, and every new entry is above the median it started from. -/
theorem Rising.le_median : ∀ {entries hist : List α} {m : α}, Rising n hist entries →
    median n hist = some m →
    (∀ a ∈ entries, m < a) ∧ ∀ m', median n (hist ++ entries) = some m' → m ≤ m'
  | [], hist, m, _, hm => by
    refine ⟨by simp, fun m' hm' => ?_⟩
    rw [List.append_nil, hm] at hm'
    exact (Option.some_inj.1 hm').le
  | a :: entries, hist, m, h, hm => by
    obtain ⟨ha, hrest⟩ := h
    have hlt := ha m hm
    have hn : 0 < n := by
      by_contra h0
      have hzero : n = 0 := by omega
      simp [median, window, kthSmallest, hzero] at hm
    obtain ⟨m₁, hm₁⟩ := median_isSome hn
      (List.append_ne_nil_of_right_ne_nil hist (List.cons_ne_nil a []))
    have hle := median_concat_le hm hlt hm₁
    obtain ⟨habove, hfinal⟩ := hrest.le_median hm₁
    refine ⟨?_, fun m' hm' => ?_⟩
    · rintro b hb
      rcases List.mem_cons.1 hb with rfl | hb
      · exact hlt
      · exact lt_of_le_of_lt hle (habove b hb)
    · rw [List.append_cons] at hm'
      exact hle.trans (hfinal m' hm')

/-- Above `m` are all but the entries the window keeps of the old history. -/
theorem notAbove_window_append_le {hist entries : List α} {m : α} (h : ∀ a ∈ entries, m < a) :
    below (window n (hist ++ entries)) m + equal (window n (hist ++ entries)) m ≤
      min hist.length (n - entries.length) := by
  rw [below_add_equal, window, List.drop_append, List.countP_append]
  have hnew : (entries.drop ((hist ++ entries).length - n - hist.length)).countP
      (fun y => decide (y ≤ m)) = 0 := by
    rw [List.countP_eq_zero]
    intro a ha
    simpa using h a (List.mem_of_mem_drop ha)
  have hold := List.countP_le_length (p := fun y => decide (y ≤ m))
    (l := hist.drop ((hist ++ entries).length - n))
  rw [List.length_drop, List.length_append] at hold
  rw [hnew, List.length_append]
  omega

/-- **Half a window of entries raises the median.** -/
theorem Rising.lt_median {hist entries : List α} {m m' : α} (h : Rising n hist entries)
    (hm : median n hist = some m) (hlen : n ≤ 2 * entries.length)
    (hm' : median n (hist ++ entries) = some m') : m < m' := by
  refine (hasRank_of_median hm').lt ?_
  have hcount : below (window n (hist ++ entries)) m + equal (window n (hist ++ entries)) m ≤
      min hist.length (n - entries.length) := notAbove_window_append_le (h.le_median hm).1
  rw [length_window, List.length_append]
  omega

/-- **The clock.**  Measured on any strictly increasing scale, the median gains one for every
half window of entries. -/
theorem Rising.add_div_le (hn : 0 < n) {scale : α → Nat} (hscale : StrictMono scale) :
    ∀ (k : Nat) {entries hist : List α} {m m' : α}, Rising n hist entries →
    k * ((n + 1) / 2) ≤ entries.length → median n hist = some m →
    median n (hist ++ entries) = some m' → scale m + k ≤ scale m'
  | 0, entries, hist, m, m', h, _, hm, hm' => hscale.monotone ((h.le_median hm).2 m' hm')
  | k + 1, entries, hist, m, m', h, hlen, hm, hm' => by
    have hstep : (n + 1) / 2 ≤ entries.length := by
      rw [Nat.succ_mul] at hlen
      omega
    have hsplit := List.take_append_drop ((n + 1) / 2) entries
    have htake : (entries.take ((n + 1) / 2)).length = (n + 1) / 2 := List.length_take_of_le hstep
    rw [← hsplit, rising_append] at h
    rw [← hsplit, ← List.append_assoc] at hm'
    have hne : hist ++ entries.take ((n + 1) / 2) ≠ [] := by
      intro hnil
      have := (List.append_eq_nil_iff.1 hnil).2
      rw [this] at htake
      simp at htake
      omega
    obtain ⟨m₁, hm₁⟩ := median_isSome hn hne
    have hlt := h.1.lt_median hm (by rw [htake]; omega) hm₁
    have hrest : k * ((n + 1) / 2) ≤ (entries.drop ((n + 1) / 2)).length := by
      rw [List.length_drop]
      rw [Nat.succ_mul] at hlen
      omega
    have hih := Rising.add_div_le hn hscale k h.2 hrest hm₁ hm'
    have hone := hscale hlt
    omega

end MedianWindow
