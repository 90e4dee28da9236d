import Mathlib.Tactic
import Zkpow.Work
import Zkpow.Lib.Rank
import Zkpow.Lib.ExceptFold

/-!
# Applying headers to a state

`State::apply_headers` and the methods it calls (`crates/core/src/state.rs`), as the code runs
them: hints are asserted, the work of a run of equally difficult headers is kept pending and
added at a flush, `self` is mutated in place and is part of the outcome when a header fails.
The hash function is a pure parameter.

* `applyStep`, `applyHeaders` — the loop body and the loop;
* `medianTimePastHinted_iff` — the counting check accepts exactly the upper median;
* `prepareNewEpoch_ok` — preparing an epoch never fails, from any state.
-/

set_option autoImplicit false

namespace Zkpow

/-! ## Methods of `State` -/

/-- Why `apply_headers` panics. -/
inductive Panic where
  | medianHintCount
  | invalidMedianHint (headerIndex : Nat)
  | epochTargetTooLarge
  deriving DecidableEq, Repr

/-- The number of timestamps currently tracked for median-time-past. -/
def State.timestampCount (s : State) : Nat := min (s.height.toNat + 1) WINDOW_SIZE

/-- The circular-buffer slot of a height. -/
def timestampSlot (height : UInt32) : Fin WINDOW_SIZE :=
  ⟨height.toNat % WINDOW_SIZE, Nat.mod_lt _ (by decide)⟩

/-- The circular-buffer slot containing the current tip timestamp. -/
def State.currentTimestampSlot (s : State) : Fin WINDOW_SIZE := timestampSlot s.height

/-- The tip timestamp. -/
def State.tipTimestamp (s : State) : BlockTimestamp := s.timestamps[s.currentTimestampSlot]

/-- The tracked timestamps, in slot order. -/
def State.trackedTimestamps (s : State) : List BlockTimestamp :=
  s.timestamps.toList.take s.timestampCount

/-- Counts of entries below, at and above the claimed median. -/
structure MedianCounts where
  less : Nat
  equal : Nat
  greater : Nat
  deriving DecidableEq, Repr

def MedianCounts.count (claimedMedian : BlockTimestamp) (c : MedianCounts)
    (timestamp : BlockTimestamp) : MedianCounts :=
  if timestamp < claimedMedian then { c with less := c.less + 1 }
  else if timestamp > claimedMedian then { c with greater := c.greater + 1 }
  else { c with equal := c.equal + 1 }

/-- `median_time_past_hinted`: whether the claimed median has the rank of the upper median. -/
def State.medianTimePastHinted (s : State) (claimedMedian : BlockTimestamp) : Bool :=
  let windowLen := s.timestampCount
  if windowLen = 0 then true else
  let medianIndex := windowLen / 2
  let c := s.trackedTimestamps.foldl (MedianCounts.count claimedMedian) ⟨0, 0, 0⟩
  decide (c.less + c.equal + c.greater = windowLen) && decide (c.less ≤ medianIndex) &&
    decide (c.less + c.equal > medianIndex)

/-- The difficulty values that are cached together. -/
structure Difficulty where
  nbits : CompactTarget
  target : Target
  work : ChainWork
  deriving DecidableEq, Repr

def State.difficulty (s : State) : Difficulty := ⟨s.currentNbits, s.currentTarget, s.currentWork⟩

/-- Compute the difficulty values that become active at a new epoch boundary. -/
def State.prepareNewEpoch (s : State) (previousTimestamp : BlockTimestamp) :
    Except TargetError Difficulty := do
  let r := calculateNextTargetRequired s.currentTarget s.epochStartTimestamp previousTimestamp
  let work ← workFromTarget r.2
  return ⟨r.1, r.2, work⟩

def State.applyChainWorkRun (s : State) (runWork : ChainWork) (runCount : UInt32) : State :=
  if runCount > 0 then { s with chainWork := s.chainWork + runWork * runCount } else s

/-- The locals `pending_run_work` and `pending_run_count`. -/
structure Pending where
  runWork : Option ChainWork
  runCount : UInt32
  deriving DecidableEq, Repr

def Pending.empty : Pending := ⟨none, 0⟩

/-- The closure `flush_pending_chain_work`, on the state; it leaves the locals empty. -/
def State.flush (s : State) (p : Pending) : State :=
  match p.runWork with
  | some runWork => s.applyChainWorkRun runWork p.runCount
  | none => s

/-! ## The loop -/

/-- How the loop is left early: by a panic, or by returning `Err` from the mutated `self`. -/
inductive Stop where
  | panic (p : Panic)
  | fail (self : State) (failure : ApplyFailure)
  deriving DecidableEq, Repr

/-- The difficulty of the candidate header.  At a boundary the pending work is flushed first. -/
def activate (self : State) (pending : Pending) (candidateHeight : UInt32)
    (previousTimestamp : BlockTimestamp) : Except Stop (State × Pending × Difficulty) :=
  if candidateHeight % EPOCH_LENGTH = 0 then
    let self := self.flush pending
    match self.prepareNewEpoch previousTimestamp with
    | .ok prepared => .ok (self, .empty, prepared)
    | .error _ => .error (.panic .epochTargetTooLarge)
  else .ok (self, pending, self.difficulty)

/-- The block `assign_state`. -/
def State.assign (s : State) (candidateHeight : UInt32) (d : Difficulty) (header : Header)
    (blockHash : BlockHash) : State :=
  { s with
    height := candidateHeight
    timestamps := s.timestamps.set (timestampSlot candidateHeight) header.timestamp
    currentNbits := d.nbits
    currentTarget := d.target
    currentWork := d.work
    epochStartTimestamp :=
      if candidateHeight % EPOCH_LENGTH = 0 then header.timestamp else s.epochStartTimestamp
    header := header
    blockHash := blockHash }

/-- Count one accepted header of the given work; a change of work flushes the previous run. -/
def State.countWork (s : State) (p : Pending) (work : ChainWork) : State × Pending :=
  if p.runWork ≠ some work then (s.flush p, ⟨some work, 0 + 1⟩)
  else (s, ⟨p.runWork, p.runCount + 1⟩)

/-- The loop body, on a header with its hint and its index in the batch. -/
def applyStep (hashHeader : Header → BlockHash) (st : State × Pending)
    (item : (NewHeader × BlockTimestamp) × Nat) : Except Stop (State × Pending) := do
  let (self, pending) := st
  let ((newHeader, claimedMedian), headerIndex) := item
  let candidateHeight := self.height + 1
  let previousTimestamp := self.tipTimestamp
  if self.medianTimePastHinted claimedMedian = false then
    .error (.panic (.invalidMedianHint headerIndex))
  else if newHeader.timestamp ≤ claimedMedian then
    let self := self.flush pending
    .error (.fail self ⟨self, .timestampTooOld, candidateHeight⟩)
  else
    let (self, pending, active) ← activate self pending candidateHeight previousTimestamp
    let header := newHeader.intoHeader self.blockHash active.nbits
    let blockHash := hashHeader header
    if checkProofOfWork blockHash active.target = false then
      let self := self.flush pending
      .error (.fail self ⟨self, .powInsufficient, candidateHeight⟩)
    else
      let (self, pending) := self.countWork pending active.work
      .ok (self.assign candidateHeight active header blockHash, pending)

/-- `State::apply_headers`: the mutated `self` and the returned `Result`, or a panic. -/
def applyHeaders (hashHeader : Header → BlockHash) (self : State) (headers : List NewHeader)
    (medianHints : List BlockTimestamp) : Except Panic (State × Except ApplyFailure Unit) :=
  if headers.length ≠ medianHints.length then .error .medianHintCount
  else
    match (headers.zip medianHints).zipIdx.foldlM (applyStep hashHeader) (self, .empty) with
    | .ok (self, pending) => .ok (self.flush pending, .ok ())
    | .error (.fail self failure) => .ok (self, .error failure)
    | .error (.panic p) => .error p

/-! ## The median check -/

theorem timestampCount_pos (s : State) : 0 < s.timestampCount := by
  simp [State.timestampCount]

theorem timestampCount_le (s : State) : s.timestampCount ≤ WINDOW_SIZE := Nat.min_le_right _ _

@[simp] theorem length_trackedTimestamps (s : State) :
    s.trackedTimestamps.length = s.timestampCount := by
  rw [State.trackedTimestamps, List.length_take_of_le]
  rw [Vector.length_toList]
  exact timestampCount_le s

theorem foldl_count (m : BlockTimestamp) : ∀ (l : List BlockTimestamp) (c : MedianCounts),
    l.foldl (MedianCounts.count m) c =
      ⟨c.less + Rank.below l m, c.equal + Rank.equal l m,
        c.greater + (l.length - Rank.below l m - Rank.equal l m)⟩
  | [], c => by simp [Rank.below, Rank.equal]
  | t :: l, c => by
    have hle := Rank.below_add_equal_le l m
    rw [List.foldl_cons, foldl_count m l, Rank.below_cons, Rank.equal_cons, List.length_cons]
    unfold MedianCounts.count
    rcases lt_trichotomy t m with h | h | h
    · simp only [h, h.ne, if_true, if_false, MedianCounts.mk.injEq]
      omega
    · simp only [h, lt_irrefl, if_true, if_false, MedianCounts.mk.injEq]
      omega
    · simp only [h, h.not_gt, h.ne', if_true, if_false, MedianCounts.mk.injEq]
      omega

/-- The upper median of the tracked timestamps, `sorted[len / 2]`. -/
def State.medianTimePast (s : State) : BlockTimestamp :=
  (Rank.kthSmallest s.trackedTimestamps (s.timestampCount / 2)).getD 0

theorem kthSmallest_medianTimePast (s : State) :
    Rank.kthSmallest s.trackedTimestamps (s.timestampCount / 2) = some s.medianTimePast := by
  have hlt : s.timestampCount / 2 < s.trackedTimestamps.length := by
    rw [length_trackedTimestamps]
    have := timestampCount_pos s
    omega
  obtain ⟨m, hm⟩ := Rank.kthSmallest_isSome hlt
  rw [State.medianTimePast, hm, Option.getD_some]

/-- **The counting check accepts exactly the upper median**, for every window, duplicates
included. -/
theorem medianTimePastHinted_iff {s : State} {m : BlockTimestamp} :
    s.medianTimePastHinted m = true ↔ m = s.medianTimePast := by
  have hle := Rank.below_add_equal_le s.trackedTimestamps m
  have hlen := length_trackedTimestamps s
  have hrank := Rank.counts_iff_kthSmallest s.trackedTimestamps (s.timestampCount / 2) m
  rw [kthSmallest_medianTimePast, Option.some_inj, eq_comm (b := m)] at hrank
  rw [← hrank, Rank.HasRank]
  unfold State.medianTimePastHinted
  simp only [foldl_count, (timestampCount_pos s).ne', if_false, Bool.and_eq_true,
    decide_eq_true_eq, Nat.zero_add, gt_iff_lt]
  omega

/-! ## Preparing an epoch -/

/-- **Preparing an epoch never fails**: its target is at most the proof-of-work limit. -/
theorem prepareNewEpoch_ok (s : State) (previous : BlockTimestamp) :
    ∃ d, s.prepareNewEpoch previous = .ok d := by
  obtain ⟨w, hw⟩ := workFromTarget_ok
    (calculateNextTargetRequired_le s.currentTarget s.epochStartTimestamp previous)
  unfold State.prepareNewEpoch
  simp only [hw]
  exact ⟨_, rfl⟩

theorem prepareNewEpoch_spec {s : State} {previous : BlockTimestamp} {d : Difficulty}
    (h : s.prepareNewEpoch previous = .ok d) :
    (d.nbits, d.target) =
        calculateNextTargetRequired s.currentTarget s.epochStartTimestamp previous ∧
      workFromTarget d.target = .ok d.work := by
  unfold State.prepareNewEpoch at h
  simp only at h
  generalize hr : calculateNextTargetRequired s.currentTarget s.epochStartTimestamp previous = r
    at h
  cases hw : workFromTarget r.2 with
  | error e => rw [hw] at h; cases h
  | ok w =>
    rw [hw] at h
    cases h
    exact ⟨rfl, hw⟩

end Zkpow
