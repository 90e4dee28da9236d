import Mathlib.Tactic
import Zkpow.Lib.HighWater
import Zkpow.Lib.Transactions

/-!
# The tracking allocator

`crates/memory-usage/src/allocation.rs`: an allocator that forwards to another one and counts live
bytes and their peak in two relaxed atomics.  Each call is several steps (the inner call, the
`fetch_add` or `fetch_sub`, the `fetch_max`), and the steps of concurrent calls interleave.  Only
read-modify-writes touch the counters, so each sees one order of them; a `fetch_max` may come at
any time after the `fetch_add` whose result it was given.

* `step` — one step of some call;
* `tracker_accounts` — what the counters say after any interleaving.
-/

set_option autoImplicit false

namespace Zkpow.MemoryUsage

open HighWater Transactions

/-- An integer as an `i64`: addition and `as` wrap. -/
def asI64 (x : Int) : Int := x.bmod (2 ^ 64)

theorem asI64_of_lt {n : Nat} (h : n < 2 ^ 63) : asI64 n = n :=
  Int.bmod_eq_of_le (by omega) (by omega)

/-! ## The counters -/

/-- `live_bytes`, `peak_bytes`, and the `fetch_max` calls on `peak_bytes` still to come. -/
abbrev AllocationTracker := Meter Int

namespace AllocationTracker

variable (tracker : AllocationTracker)

def new : AllocationTracker := .start 0

def liveBytes : Nat := (max tracker.value 0).toNat

def peakBytes : Nat := (max tracker.mark 0).toNat

/-- `record_alloc` up to its `fetch_max`. -/
def recordAlloc (size : Nat) : AllocationTracker :=
  tracker.raise (asI64 (tracker.value + asI64 size))

def recordDealloc (size : Nat) : AllocationTracker :=
  tracker.lower (asI64 (tracker.value - asI64 size))

/-- `record_realloc` up to its `fetch_max`. -/
def recordRealloc (oldSize newSize : Nat) : AllocationTracker :=
  let delta := asI64 (asI64 newSize - asI64 oldSize)
  tracker.raise (asI64 (tracker.value + delta))

end AllocationTracker

/-! ## Blocks -/

/-- A block, by how far the calls on it have got. -/
inductive Block where
  /-- The inner allocator has returned it. -/
  | allocated (size : Nat)
  | live (size : Nat)
  /-- The inner allocator has resized it. -/
  | reallocated (oldSize newSize : Nat)
  /-- The inner allocator has taken it back. -/
  | freed (size : Nat)
  | gone
  deriving DecidableEq, Repr

/-- The bytes the inner allocator has given out. -/
def Block.held : Block → Nat
  | .allocated size => size
  | .live size => size
  | .reallocated _ newSize => newSize
  | .freed _ => 0
  | .gone => 0

/-- The bytes the tracker has been told of. -/
def Block.recorded : Block → Nat
  | .allocated _ => 0
  | .live size => size
  | .reallocated oldSize _ => oldSize
  | .freed size => size
  | .gone => 0

def held (blocks : List Block) : Nat := (blocks.map Block.held).sum

def recorded (blocks : List Block) : Nat := (blocks.map Block.recorded).sum

/-- The bytes that a call between its inner call and its record has yet to report. -/
def Block.inFlight (b : Block) : Nat := (b.held - b.recorded) + (b.recorded - b.held)

def inFlight (blocks : List Block) : Nat := (blocks.map Block.inFlight).sum

theorem recorded_set : ∀ {blocks : List Block} {i : Nat} {b : Block} (b' : Block),
    blocks[i]? = some b → recorded (blocks.set i b') + b.recorded = recorded blocks + b'.recorded
  | [], _, _, _, h => by cases h
  | c :: blocks, 0, b, b', h => by
    obtain rfl : c = b := Option.some.inj h
    simp only [recorded, List.set_cons_zero, List.map_cons, List.sum_cons]
    omega
  | c :: blocks, i + 1, b, b', h => by
    have ih : recorded (blocks.set i b') + b.recorded = recorded blocks + b'.recorded :=
      recorded_set b' h
    simp only [recorded, List.set_cons_succ, List.map_cons, List.sum_cons] at ih ⊢
    omega

/-- The calls in flight are all that the records can be off by. -/
theorem held_dist_recorded (blocks : List Block) :
    held blocks ≤ recorded blocks + inFlight blocks ∧
      recorded blocks ≤ held blocks + inFlight blocks := by
  induction blocks with
  | nil => exact ⟨Nat.le_refl _, Nat.le_refl _⟩
  | cons b blocks ih =>
    simp only [held, recorded, inFlight, List.map_cons, List.sum_cons, Block.inFlight] at ih ⊢
    omega

/-! ## Steps -/

/-- The counters and every block there ever was. -/
structure World where
  tracker : AllocationTracker
  blocks : List Block

def World.initial : World := ⟨.new, []⟩

/-- A step of some call; a block is named by its place among all blocks.  An inner call that
returns null is no step. -/
inductive Action where
  | alloc (size : Nat)
  | recordAlloc (block : Nat)
  | realloc (block newSize : Nat)
  | recordRealloc (block : Nat)
  | dealloc (block : Nat)
  | recordDealloc (block : Nat)
  | fetchMax (pending : Nat)
  deriving DecidableEq, Repr

/-- One step; a step that is not the next one of its call, or a call on a block that is not live,
does not happen. -/
def step (w : World) : Action → Except Unit World
  | .alloc size => .ok ⟨w.tracker, w.blocks ++ [.allocated size]⟩
  | .recordAlloc block =>
    match w.blocks[block]? with
    | some (.allocated size) =>
      .ok ⟨w.tracker.recordAlloc size, w.blocks.set block (.live size)⟩
    | _ => .error ()
  | .realloc block newSize =>
    match w.blocks[block]? with
    | some (.live size) => .ok ⟨w.tracker, w.blocks.set block (.reallocated size newSize)⟩
    | _ => .error ()
  | .recordRealloc block =>
    match w.blocks[block]? with
    | some (.reallocated oldSize newSize) =>
      .ok ⟨w.tracker.recordRealloc oldSize newSize,
        w.blocks.set block (.live newSize)⟩
    | _ => .error ()
  | .dealloc block =>
    match w.blocks[block]? with
    | some (.live size) => .ok ⟨w.tracker, w.blocks.set block (.freed size)⟩
    | _ => .error ()
  | .recordDealloc block =>
    match w.blocks[block]? with
    | some (.freed size) =>
      .ok ⟨w.tracker.recordDealloc size, w.blocks.set block .gone⟩
    | _ => .error ()
  | .fetchMax pending =>
    if pending < w.tracker.pending.length then .ok ⟨w.tracker.settle pending, w.blocks⟩
    else .error ()

/-- The world after the steps of an interleaving. -/
def after (actions : List Action) : World := (run step .initial actions).1

/-- **What one step can do**: the counter of live bytes changes by what the records change by, and
only falls when the `fetch_max` is left out. -/
theorem step_cases {w w' : World} {a : Action} (h : step w a = .ok w') :
    (w'.tracker = w.tracker ∧ recorded w'.blocks = recorded w.blocks) ∨
    (∃ k, w'.tracker = w.tracker.settle k ∧ recorded w'.blocks = recorded w.blocks) ∨
    (∃ delta : Int, w'.tracker = w.tracker.raise (asI64 (w.tracker.value + asI64 delta)) ∧
      (recorded w'.blocks : Int) = recorded w.blocks + delta) ∨
    (∃ size : Nat, w'.tracker = w.tracker.lower (asI64 (w.tracker.value - asI64 size)) ∧
      recorded w'.blocks + size = recorded w.blocks) := by
  cases a with
  | alloc size =>
    refine .inl ?_
    rw [← Except.ok.inj h]
    exact ⟨rfl, by simp [recorded, Block.recorded]⟩
  | fetchMax k =>
    simp only [step] at h
    split at h
    · rw [← Except.ok.inj h]
      exact .inr (.inl ⟨k, rfl, rfl⟩)
    · cases h
  | recordAlloc block =>
    simp only [step] at h
    split at h
    · rename_i size hblock
      have hset := recorded_set (.live size) hblock
      rw [← Except.ok.inj h]
      refine .inr (.inr (.inl ⟨size, rfl, ?_⟩))
      simp only [Block.recorded] at hset ⊢
      omega
    · cases h
  | realloc block newSize =>
    simp only [step] at h
    split at h
    · rename_i size hblock
      have hset := recorded_set (.reallocated size newSize) hblock
      rw [← Except.ok.inj h]
      exact .inl ⟨rfl, Nat.add_right_cancel hset⟩
    · cases h
  | recordRealloc block =>
    simp only [step] at h
    split at h
    · rename_i oldSize newSize hblock
      have hset := recorded_set (.live newSize) hblock
      rw [← Except.ok.inj h]
      refine .inr (.inr (.inl ⟨(newSize : Int) - oldSize, ?_, ?_⟩))
      · simp [AllocationTracker.recordRealloc, asI64]
      · simp only [Block.recorded] at hset ⊢
        omega
    · cases h
  | dealloc block =>
    simp only [step] at h
    split at h
    · rename_i size hblock
      have hset := recorded_set (.freed size) hblock
      rw [← Except.ok.inj h]
      exact .inl ⟨rfl, Nat.add_right_cancel hset⟩
    · cases h
  | recordDealloc block =>
    simp only [step] at h
    split at h
    · rename_i size hblock
      have hset := recorded_set .gone hblock
      rw [← Except.ok.inj h]
      exact .inr (.inr (.inr ⟨size, rfl, hset⟩))
    · cases h

/-- The counter of live bytes is the sum of the records, as an `i64`. -/
theorem live_eq (actions : List Action) :
    (after actions).tracker.value = asI64 (recorded (after actions).blocks) := by
  have hstart : World.initial.tracker.value = asI64 (recorded World.initial.blocks) := by decide
  refine run_inv (fun (w : World) (_ : List Action) =>
    w.tracker.value = asI64 (recorded w.blocks)) hstart ?_ actions
  intro w _ a w' hw hstep
  rcases step_cases hstep with ⟨htracker, hblocks⟩ | ⟨k, htracker, hblocks⟩ |
    ⟨delta, htracker, hblocks⟩ | ⟨size, htracker, hblocks⟩
  · rw [htracker, hblocks, hw]
  · rw [htracker, hblocks, Meter.settle_value, hw]
  · rw [htracker, hblocks, Meter.raise_value, hw]
    simp [asI64]
  · rw [htracker, Meter.lower_value, hw, ← hblocks]
    simp [asI64]

section Fits

variable {actions : List Action}
  (hfits : ∀ part, part <+: actions → recorded (after part).blocks < 2 ^ 63)

include hfits

theorem live_eq_recorded : (after actions).tracker.value = recorded (after actions).blocks := by
  rw [live_eq, asI64_of_lt (hfits actions (List.prefix_refl _))]

/-- A step of an interleaving is a step of the counters. -/
theorem step_tracker {part : List Action} {a : Action} (hpart : part ++ [a] <+: actions) :
    (after part).tracker.Step (after (part ++ [a])).tracker := by
  have hlive : (after part).tracker.value = recorded (after part).blocks :=
    live_eq_recorded fun part' h => hfits part' ((h.trans (List.prefix_append _ _)).trans hpart)
  have hnext : (after (part ++ [a])).tracker.value = recorded (after (part ++ [a])).blocks :=
    live_eq_recorded fun part' h => hfits part' (h.trans hpart)
  have hrun : after (part ++ [a]) = (attempt step (run step .initial part) a).1 :=
    congrArg Prod.fst (run_concat _ _ _)
  cases hstep : step (after part) a with
  | error e =>
    rw [attempt_of_error hstep] at hrun
    rw [hrun]
    exact .stay
  | ok w =>
    rw [attempt_of_ok hstep] at hrun
    simp only at hrun
    subst hrun
    rcases step_cases hstep with ⟨htracker, -⟩ | ⟨k, htracker, -⟩ | ⟨delta, htracker, -⟩ |
      ⟨size, htracker, hblocks⟩
    · rw [htracker]
      exact .stay
    · rw [htracker]
      exact .settle k
    · rw [htracker]
      exact .raise _
    -- bytes that are no longer recorded lower the counter
    · have hvalue := congrArg Meter.value htracker
      rw [Meter.lower_value, hnext] at hvalue
      rw [htracker]
      refine .lower ?_
      rw [← hvalue, hlive]
      omega

end Fits

/-- **The counters of any interleaving.**  While the recorded bytes fit an `i64`, after the steps of
any calls in any order: `live_bytes` is the sum of the records, which differs from the bytes given
out by no more than the calls in flight; and `peak_bytes` is at most the greatest value `live_bytes`
ever had, and equal to it when no `fetch_max` is under way. -/
theorem tracker_accounts (actions : List Action)
    (hfits : ∀ part, part <+: actions → recorded (after part).blocks < 2 ^ 63) :
    let w := after actions
    w.tracker.liveBytes = recorded w.blocks ∧
    held w.blocks ≤ w.tracker.liveBytes + inFlight w.blocks ∧
    w.tracker.liveBytes ≤ held w.blocks + inFlight w.blocks ∧
    ∃ peak, IsGreatest {n | ∃ part, part <+: actions ∧
        (after part).tracker.liveBytes = n} peak ∧
      w.tracker.peakBytes ≤ peak ∧
      (w.tracker.pending = [] → w.tracker.peakBytes = peak) := by
  intro w
  have hlive : ∀ part, part <+: actions →
      (after part).tracker.value = recorded (after part).blocks ∧
        (after part).tracker.liveBytes = recorded (after part).blocks := by
    intro part hpart
    have hvalue : (after part).tracker.value = recorded (after part).blocks :=
      live_eq_recorded fun part' h => hfits part' (h.trans hpart)
    exact ⟨hvalue, by rw [AllocationTracker.liveBytes, hvalue]; omega⟩
  obtain ⟨hheld, hrecorded⟩ := held_dist_recorded w.blocks
  have hnow : w.tracker.liveBytes = recorded w.blocks := (hlive actions (List.prefix_refl _)).2
  have htracker : IsGreatest {v | ∃ part, part <+: actions ∧ (after part).tracker.value = v}
      (after actions).tracker.top :=
    isGreatest_top (fun part => (after part).tracker) rfl actions fun part a hpart =>
      step_tracker hfits hpart
  obtain ⟨⟨best, hbest, htop⟩, hgreatest⟩ := htracker
  refine ⟨hnow, by omega, by omega, w.tracker.top.toNat, ⟨⟨best, hbest, ?_⟩, ?_⟩, ?_, ?_⟩
  · rw [(hlive best hbest).2, ← htop, (hlive best hbest).1]
    rfl
  · rintro n ⟨part, hpart, rfl⟩
    have hle := hgreatest ⟨part, hpart, rfl⟩
    simp only [(hlive part hpart).1] at hle
    rw [(hlive part hpart).2]
    exact Int.toNat_natCast _ ▸ Int.toNat_le_toNat hle
  · have hmark := w.tracker.mark_le_top
    have hpos : 0 ≤ w.tracker.top := by
      rw [← htop, (hlive best hbest).1]
      omega
    unfold AllocationTracker.peakBytes
    omega
  · intro hsettled
    have hmark : w.tracker.top = w.tracker.mark := Meter.top_of_settled hsettled
    have hpos : 0 ≤ w.tracker.top := by
      rw [← htop, (hlive best hbest).1]
      omega
    unfold AllocationTracker.peakBytes
    omega

/-- Two threads: the bytes of one are freed before the `fetch_max` of the other. -/
theorem tracker_accounts_two :
    let actions : List Action := [.alloc 16, .alloc 40, .recordAlloc 1, .recordAlloc 0, .fetchMax 1,
      .dealloc 1, .recordDealloc 1, .fetchMax 0]
    (after actions).tracker.liveBytes = 16 ∧
      IsGreatest {n | ∃ part, part <+: actions ∧ (after part).tracker.liveBytes = n} 56 := by
  intro actions
  have hfits : ∀ part, part <+: actions → recorded (after part).blocks < 2 ^ 63 := by
    intro part hpart
    rw [← List.mem_inits] at hpart
    revert part
    decide
  obtain ⟨hlive, -, -, peak, hpeak, -, hsettled⟩ := tracker_accounts actions hfits
  have hmax : peak = 56 := (hsettled (by decide)).symm.trans (by decide)
  exact ⟨hlive.trans (by decide), hmax ▸ hpeak⟩

end Zkpow.MemoryUsage
