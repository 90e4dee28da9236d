import Mathlib.Tactic

/-!
# A value and its high-water mark

A value that is changed in one atomic step, and a mark that is raised to what the change returned
in another.  Between the two steps other changes happen, and raises may overtake each other.

* `Meter.top` — the mark when every raise under way will have happened;
* `Meter.Step.top_eq` — what one step does to it;
* `isGreatest_top` — along any run it is the greatest value there was.
-/

set_option autoImplicit false

namespace HighWater

variable {α κ : Type} [LinearOrder α]

/-- The value, the mark, and the raises of the mark that are under way. -/
structure Meter (α : Type) where
  value : α
  mark : α
  pending : List α

namespace Meter

def start (v : α) : Meter α := ⟨v, v, []⟩

/-- The value changes, and the mark is to be raised to it. -/
def raise (m : Meter α) (v : α) : Meter α := ⟨v, m.mark, v :: m.pending⟩

/-- The value changes, and the mark is left alone. -/
def lower (m : Meter α) (v : α) : Meter α := { m with value := v }

/-- One of the raises under way happens. -/
def settle (m : Meter α) (k : Nat) : Meter α :=
  ⟨m.value, (m.pending.drop k).head?.elim m.mark (max m.mark), m.pending.eraseIdx k⟩

/-- The mark after all raises under way. -/
def top (m : Meter α) : α := m.pending.foldr max m.mark

omit [LinearOrder α] in
@[simp] theorem raise_value (m : Meter α) (v : α) : (m.raise v).value = v := rfl

omit [LinearOrder α] in
@[simp] theorem lower_value (m : Meter α) (v : α) : (m.lower v).value = v := rfl

@[simp] theorem settle_value (m : Meter α) (k : Nat) : (m.settle k).value = m.value := rfl

theorem top_raise (m : Meter α) (v : α) : (m.raise v).top = max v m.top := rfl

theorem top_lower (m : Meter α) (v : α) : (m.lower v).top = m.top := rfl

theorem mark_le_top (m : Meter α) : m.mark ≤ m.top := by
  unfold top
  induction m.pending with
  | nil => exact le_refl _
  | cons v pending ih => exact ih.trans (le_max_right _ _)

theorem top_of_settled {m : Meter α} (h : m.pending = []) : m.top = m.mark := by
  rw [top, h]
  rfl

/-- Raises may happen in any order. -/
theorem foldr_max_eraseIdx (mark : α) : ∀ (pending : List α) (k : Nat),
    (pending.eraseIdx k).foldr max ((pending.drop k).head?.elim mark (max mark)) =
      pending.foldr max mark
  | [], k => by simp
  | v :: pending, 0 => by
    show pending.foldr max (max mark v) = max v (pending.foldr max mark)
    induction pending with
    | nil => exact max_comm mark v
    | cons u pending ih =>
      rw [List.foldr_cons, List.foldr_cons, ih, max_left_comm]
  | v :: pending, k + 1 => by
    show max v ((pending.eraseIdx k).foldr max ((pending.drop k).head?.elim mark (max mark))) =
      max v (pending.foldr max mark)
    rw [foldr_max_eraseIdx mark pending k]

theorem top_settle (m : Meter α) (k : Nat) : (m.settle k).top = m.top :=
  foldr_max_eraseIdx m.mark m.pending k

end Meter

/-- What may happen to a meter: a change that raises the mark, one that need not, or a raise. -/
inductive Meter.Step (m : Meter α) : Meter α → Prop where
  | stay : m.Step m
  | raise (v : α) : m.Step (m.raise v)
  | lower {v : α} (h : v ≤ m.value) : m.Step (m.lower v)
  | settle (k : Nat) : m.Step (m.settle k)

/-- **One step** raises the top to the new value. -/
theorem Meter.Step.top_eq {m m' : Meter α} (h : m.Step m') (hle : m.value ≤ m.top) :
    m'.top = max m.top m'.value := by
  cases h with
  | stay => exact (max_eq_left hle).symm
  | raise v => rw [top_raise, raise_value, max_comm]
  | lower h => rw [top_lower, lower_value, max_eq_left (h.trans hle)]
  | settle k => rw [top_settle, settle_value, max_eq_left hle]

/-- **A whole run**: the top is the greatest value of any part of it. -/
theorem isGreatest_top (meter : List κ → Meter α) {v₀ : α} (hstart : meter [] = .start v₀) :
    ∀ run, (∀ part a, part ++ [a] <+: run → (meter part).Step (meter (part ++ [a]))) →
      IsGreatest {v | ∃ part, part <+: run ∧ (meter part).value = v} (meter run).top := by
  intro run
  induction run using List.reverseRecOn with
  | nil =>
    intro _
    have htop : (meter []).top = (meter []).value := by
      rw [hstart]
      rfl
    refine ⟨⟨[], List.prefix_refl _, htop.symm⟩, ?_⟩
    rintro v ⟨part, hpart, rfl⟩
    rw [List.prefix_nil.1 hpart, htop]
  | append_singleton run a ih =>
    intro hstep
    obtain ⟨⟨best, hbest, htop⟩, hle⟩ :=
      ih fun part b hpart => hstep part b (hpart.trans (List.prefix_append _ _))
    rw [(hstep run a (List.prefix_refl _)).top_eq (hle ⟨run, List.prefix_refl _, rfl⟩)]
    constructor
    · rcases max_choice (meter run).top (meter (run ++ [a])).value with h | h
      · exact ⟨best, hbest.trans (List.prefix_append _ _), htop.trans h.symm⟩
      · exact ⟨_, List.prefix_refl _, h.symm⟩
    · rintro v ⟨part, hpart, rfl⟩
      rcases List.prefix_concat_iff.1 hpart with rfl | hpart
      · exact le_max_right _ _
      · exact (hle ⟨part, hpart, rfl⟩).trans (le_max_left _ _)

end HighWater
