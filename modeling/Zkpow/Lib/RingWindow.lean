import Mathlib.Tactic
import Mathlib.Data.List.Rotate

/-!
# Ring buffers as windows on a history

A ring of `n` slots written at position `count % n` keeps the last `n` entries of the history
of everything written to it.

* `Represents.push` — writing the next slot represents the longer history;
* `Represents.slots_perm` — the slots in use hold exactly the window, up to order;
* `Represents.slot_eq`, `exists_last_index` — which index a slot holds.
-/

set_option autoImplicit false

namespace RingWindow

variable {α : Type} {n : Nat} {slot : Nat → α} {hist : List α}

/-- Every history entry young enough to still be in the ring is in its slot. -/
def Represents (n : Nat) (slot : Nat → α) (hist : List α) : Prop :=
  ∀ i (hi : i < hist.length), hist.length ≤ i + n → slot (i % n) = hist[i]

/-- The last `n` entries of the history. -/
def window (n : Nat) (hist : List α) : List α := hist.drop (hist.length - n)

theorem length_window (n : Nat) (hist : List α) :
    (window n hist).length = min hist.length n := by
  simp [window]; omega

theorem window_concat_sublist (hist : List α) (a : α) :
    (window n (hist ++ [a])).Sublist (window n hist ++ [a]) := by
  unfold window
  rw [List.length_append, List.length_singleton, List.drop_append]
  refine List.Sublist.append ?_ (List.drop_sublist _ _)
  exact List.drop_sublist_drop_left hist (by omega)

theorem Represents.nil (n : Nat) (slot : Nat → α) : Represents n slot [] :=
  fun i hi => by simp at hi

theorem Represents.singleton {a : α} (h : slot 0 = a) : Represents n slot [a] := by
  intro i hi _
  have h0 : i = 0 := by simpa using hi
  subst h0
  simpa using h

/-- Two recent indices in the same slot are the same index. -/
theorem eq_of_mod_eq {i j : Nat} (hij : i ≤ j) (hn : j < i + n) (h : i % n = j % n) : i = j := by
  have hd : n ∣ j - i := (Nat.modEq_iff_dvd' hij).1 h
  rcases Nat.eq_zero_or_pos (j - i) with h0 | hpos
  · omega
  · have := Nat.le_of_dvd hpos hd
    omega

/-- **Writing slot `count % n` extends the represented history by one entry.** -/
theorem Represents.push {slot' : Nat → α} {a : α} (h : Represents n slot hist) (hn : 0 < n)
    (hnew : slot' (hist.length % n) = a)
    (hold : ∀ j, j < n → j ≠ hist.length % n → slot' j = slot j) :
    Represents n slot' (hist ++ [a]) := by
  intro i hi hrecent
  simp only [List.length_append, List.length_singleton] at hi hrecent
  by_cases hlast : i = hist.length
  · subst hlast
    rw [hnew, List.getElem_append_right (Nat.le_refl _)]
    simp
  · have hi' : i < hist.length := by omega
    have hslot : i % n ≠ hist.length % n := fun he =>
      hlast (eq_of_mod_eq (by omega) (by omega) he)
    rw [hold _ (Nat.mod_lt _ hn) hslot, List.getElem_append_left hi', h i hi' (by omega)]

theorem Represents.slot_eq (h : Represents n slot hist) {i : Nat} (hi : i < hist.length)
    (hrecent : hist.length ≤ i + n) : slot (i % n) = hist[i] :=
  h i hi hrecent

/-- A slot that has been written holds the youngest index that falls on it. -/
theorem exists_last_index {s m : Nat} (hs : s < n) (hm : s < m) :
    ∃ j, j < m ∧ j % n = s ∧ m ≤ j + n ∧ ∀ i, j < i → i < m → i % n ≠ s := by
  have hage := Nat.mod_lt (m - 1 - s) (show 0 < n by omega)
  have hsplit := Nat.div_add_mod (m - 1 - s) n
  have hj : m - 1 - (m - 1 - s) % n = s + n * ((m - 1 - s) / n) := by omega
  have hslot : (m - 1 - (m - 1 - s) % n) % n = s := by
    rw [hj, Nat.add_mul_mod_self_left, Nat.mod_eq_of_lt hs]
  refine ⟨m - 1 - (m - 1 - s) % n, by omega, hslot, by omega, fun i hi him he => ?_⟩
  have := eq_of_mod_eq hi.le (by omega) (hslot.trans he.symm)
  omega

theorem getElem_window {k : Nat} (hk : k < (window n hist).length) :
    (window n hist)[k] = hist.get ⟨hist.length - n + k, by
      rw [length_window] at hk; omega⟩ := by
  simp [window]

/-- The slots in use, in slot order, are the window up to order. -/
theorem Represents.slots_perm (h : Represents n slot hist) :
    ((List.range (min hist.length n)).map slot).Perm (window n hist) := by
  have hlen := length_window n hist
  by_cases hle : hist.length ≤ n
  · apply List.Perm.of_eq
    apply List.ext_getElem
    · simp [hlen]
    · intro k h1 h2
      rw [getElem_window h2, List.getElem_map, List.getElem_range]
      have hk : k < hist.length := by rw [hlen] at h2; omega
      have hmod := h k hk (by omega)
      rw [Nat.mod_eq_of_lt (by omega)] at hmod
      rw [hmod]
      congr 1
      omega
  · rw [Nat.min_eq_right (by omega)]
    have hrot : window n hist = ((List.range n).map slot).rotate (hist.length - n) := by
      apply List.ext_getElem
      · simp [hlen]; omega
      · intro k h1 h2
        rw [getElem_window h1, List.getElem_rotate]
        simp only [List.length_map, List.length_range, List.getElem_map, List.getElem_range]
        rw [hlen] at h1
        rw [Nat.add_comm k]
        exact (h _ (by omega) (by omega)).symm
    rw [hrot]
    exact (List.rotate_perm _ _).symm

end RingWindow
