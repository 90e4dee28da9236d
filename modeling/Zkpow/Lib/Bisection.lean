import Mathlib.Tactic
import Zkpow.Lib.ExceptFold

/-!
# Bisection

A search in `[lo, hi]` for the index where a probe switches from `true` to `false`.  The probe may
fail, and may be any function: nothing makes it switch once only.  What the search then returns is
told by the indices it reads.

* `search_ok_iff` — the search ends at `i` exactly if every index it reads on the way to `i` is
  `true` below `i` and `false` from `i` on;
* `searchFrom_agree` — a search whose probes carry a state along, such as a cache, is the search
  by the probe the state is an invariant for.
-/

set_option autoImplicit false

namespace Bisection

open ExceptFold

variable {ε σ : Type}

/-- The index between two that is read next. -/
def middle (lo hi : Nat) : Nat := lo + (hi - lo) / 2

theorem le_middle (lo hi : Nat) : lo ≤ middle lo hi := Nat.le_add_right lo _

theorem middle_lt {lo hi : Nat} (h : lo < hi) : middle lo hi < hi := by
  unfold middle
  omega

/-! ## The search -/

/-- Go right of the middle where the probe holds, and left of it where it does not. -/
def search (probe : Nat → Except ε Bool) (lo hi : Nat) : Except ε Nat :=
  if lo < hi then do
    let right ← probe (middle lo hi)
    if right then search probe (middle lo hi + 1) hi else search probe lo (middle lo hi)
  else .ok lo
  termination_by hi - lo
  decreasing_by
    · have := le_middle lo hi; omega
    · have := middle_lt ‹lo < hi›; have := le_middle lo hi; omega

/-- The indices a search in `[lo, hi]` reads when it ends at `target`. -/
def probes (lo hi target : Nat) : List Nat :=
  if lo < hi then
    middle lo hi ::
      if middle lo hi < target then probes (middle lo hi + 1) hi target
      else probes lo (middle lo hi) target
  else []
  termination_by hi - lo
  decreasing_by
    · have := le_middle lo hi; omega
    · have := middle_lt ‹lo < hi›; have := le_middle lo hi; omega

variable {probe : Nat → Except ε Bool} {lo hi i : Nat}

theorem search_of_lt (h : lo < hi) : search probe lo hi = probe (middle lo hi) >>= fun right =>
    if right then search probe (middle lo hi + 1) hi else search probe lo (middle lo hi) := by
  rw [search, if_pos h]

theorem search_of_le (h : hi ≤ lo) : search probe lo hi = .ok lo := by
  rw [search, if_neg (Nat.not_lt.2 h)]

theorem probes_of_le (h : hi ≤ lo) : probes lo hi i = [] := by
  rw [probes, if_neg (Nat.not_lt.2 h)]

theorem probes_of_middle_lt (h : lo < hi) (hi' : middle lo hi < i) :
    probes lo hi i = middle lo hi :: probes (middle lo hi + 1) hi i := by
  rw [probes, if_pos h, if_pos hi']

theorem probes_of_le_middle (h : lo < hi) (hi' : i ≤ middle lo hi) :
    probes lo hi i = middle lo hi :: probes lo (middle lo hi) i := by
  rw [probes, if_pos h, if_neg (Nat.not_lt.2 hi')]

/-- Only indices of the interval are read, and not its end. -/
theorem mem_probes {mid : Nat} (h : mid ∈ probes lo hi i) : lo ≤ mid ∧ mid < hi := by
  induction lo, hi using probes.induct i with
  | case1 lo hi hlt ihright ihleft =>
    have hle := le_middle lo hi
    have hmid := middle_lt hlt
    rcases Nat.lt_or_ge (middle lo hi) i with hi' | hi'
    · rw [probes_of_middle_lt hlt hi', List.mem_cons] at h
      rcases h with rfl | h
      · exact ⟨hle, hmid⟩
      · obtain ⟨hlo, hhi⟩ := ihright h
        exact ⟨by omega, hhi⟩
    · rw [probes_of_le_middle hlt hi', List.mem_cons] at h
      rcases h with rfl | h
      · exact ⟨hle, hmid⟩
      · obtain ⟨hlo, hhi⟩ := ihleft h
        exact ⟨hlo, by omega⟩
  | case2 lo hi hge =>
    rw [probes_of_le (Nat.not_lt.1 hge)] at h
    cases h

/-- **Where a search ends**: at `i` exactly if every index it reads on the way to `i` is `true`
below `i` and `false` from `i` on. -/
theorem search_ok_iff (hle : lo ≤ hi) : search probe lo hi = .ok i ↔
    lo ≤ i ∧ i ≤ hi ∧ ∀ mid ∈ probes lo hi i, probe mid = .ok (decide (mid < i)) := by
  induction lo, hi using probes.induct i with
  | case1 lo hi hlt ihright ihleft =>
    have hlo := le_middle lo hi
    have hmid := middle_lt hlt
    rw [search_of_lt hlt, bind_ok]
    constructor
    · rintro ⟨right, hprobe, hrest⟩
      cases right with
      | true =>
        obtain ⟨h1, h2, hreads⟩ := (ihright (by omega)).1 hrest
        refine ⟨by omega, h2, ?_⟩
        rw [probes_of_middle_lt hlt (by omega), List.forall_mem_cons]
        exact ⟨by rw [hprobe, decide_eq_true (by omega)], hreads⟩
      | false =>
        obtain ⟨h1, h2, hreads⟩ := (ihleft (by omega)).1 hrest
        refine ⟨h1, by omega, ?_⟩
        rw [probes_of_le_middle hlt h2, List.forall_mem_cons]
        exact ⟨by rw [hprobe, decide_eq_false (by omega)], hreads⟩
    · rintro ⟨h1, h2, hreads⟩
      rcases Nat.lt_or_ge (middle lo hi) i with hi' | hi'
      · rw [probes_of_middle_lt hlt hi', List.forall_mem_cons, decide_eq_true hi'] at hreads
        exact ⟨true, hreads.1, (ihright (by omega)).2 ⟨hi', h2, hreads.2⟩⟩
      · rw [probes_of_le_middle hlt hi', List.forall_mem_cons,
          decide_eq_false (Nat.not_lt.2 hi')] at hreads
        exact ⟨false, hreads.1, (ihleft hlo).2 ⟨h1, hi', hreads.2⟩⟩
  | case2 lo hi hge =>
    have heq : lo = hi := Nat.le_antisymm hle (Nat.not_lt.1 hge)
    rw [search_of_le (Nat.not_lt.1 hge), probes_of_le (Nat.not_lt.1 hge), Except.ok.injEq]
    constructor
    · rintro rfl
      exact ⟨Nat.le_refl _, hle, fun mid hmem => by cases hmem⟩
    · rintro ⟨h1, h2, _⟩
      omega

/-! ## Probes that carry a state -/

/-- The search with a state from one probe to the next. -/
def searchFrom (probe : σ → Nat → Except ε (Bool × σ)) (s : σ) (lo hi : Nat) :
    Except ε (Nat × σ) :=
  if lo < hi then do
    let (right, s) ← probe s (middle lo hi)
    if right then searchFrom probe s (middle lo hi + 1) hi
    else searchFrom probe s lo (middle lo hi)
  else .ok (lo, s)
  termination_by hi - lo
  decreasing_by
    · have := le_middle lo hi; omega
    · have := middle_lt ‹lo < hi›; have := le_middle lo hi; omega

/-- **Simulation rule**: where the probes keep an invariant of the state and answer as a probe
without state does, the two searches end alike, and the state still has the invariant. -/
theorem searchFrom_agree {probeFrom : σ → Nat → Except ε (Bool × σ)} {Inv : σ → Prop} {n : Nat}
    (hprobe : ∀ s mid, Inv s → mid < n →
      Agree (fun p right => p.1 = right ∧ Inv p.2) (· = ·) (probeFrom s mid) (probe mid)) {s : σ}
    (hs : Inv s) (hn : hi ≤ n) :
    Agree (fun p i => p.1 = i ∧ Inv p.2) (· = ·) (searchFrom probeFrom s lo hi)
      (search probe lo hi) := by
  induction lo, hi using probes.induct 0 generalizing s with
  | case1 lo hi hlt ihright ihleft =>
    have hmid := middle_lt hlt
    have hagree := hprobe s (middle lo hi) hs (by omega)
    rw [searchFrom, if_pos hlt, search_of_lt hlt]
    generalize probeFrom s (middle lo hi) = x at hagree ⊢
    generalize probe (middle lo hi) = y at hagree ⊢
    cases hagree with
    | error he => exact .error he
    | @ok p right hp =>
      obtain ⟨rfl, hinv⟩ := hp
      show Agree _ _ (if p.1 then _ else _) (if p.1 then _ else _)
      split
      · exact ihright hinv hn
      · exact ihleft hinv (by omega)
  | case2 lo hi hge =>
    rw [searchFrom, if_neg hge, search_of_le (Nat.not_lt.1 hge)]
    exact .ok ⟨rfl, hs⟩

end Bisection
