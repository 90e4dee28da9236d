import Mathlib.Tactic
import Mathlib.Algebra.BigOperators.Group.Finset.Basic
import Zkpow.Batch
import Zkpow.Lib.RingWindow

/-!
# The rules of a whole chain

The header rules stated over a whole list of headers above a genesis block, with no ring buffer,
no cached difficulty and no deferred work: every block's timestamp, difficulty and hash is a
function of the list.

* `ChainInv` — what a state remembers of the chain below it;
* `acceptHeader_iff_blockValid` — one header is accepted exactly when its block is valid;
* `applyHeaders_accepts_iff` — a whole list is accepted exactly when every block is valid, and
  then the state has the chain's height, tip hash and accumulated work.
-/

set_option autoImplicit false

namespace Zkpow

open ExceptFold RingWindow

/-! ## Chains -/

/-- The headers above a genesis block. -/
structure Chain where
  genesisHash : BlockHash
  genesisTimestamp : BlockTimestamp
  headers : List NewHeader

namespace Chain

variable (hashHeader : Header → BlockHash) (c : Chain)

/-- The timestamps of blocks `0 … n`. -/
def timestamps : List BlockTimestamp :=
  c.genesisTimestamp :: c.headers.map NewHeader.timestamp

def timestampAt (h : Nat) : BlockTimestamp := c.timestamps.getD h 0

/-- The timestamps of blocks `max(0, h - 11) … h - 1`. -/
def windowAt (h : Nat) : List BlockTimestamp := window WINDOW_SIZE (c.timestamps.take h)

/-- The upper median, `sorted[len / 2]`, of the blocks before block `h`. -/
def medianAt (h : Nat) : BlockTimestamp :=
  (Rank.kthSmallest (c.windowAt h) ((c.windowAt h).length / 2)).getD 0

/-- `nbits` and target of block `h`: those of its parent, except at a retarget. -/
def difficultyAt : Nat → CompactTarget × Target
  | 0 => (GENESIS_NBITS, GENESIS_TARGET)
  | h + 1 =>
    if 2016 ∣ h + 1 then
      calculateNextTargetRequired (difficultyAt h).2 (c.timestampAt (h + 1 - 2016))
        (c.timestampAt h)
    else difficultyAt h

/-- The hash of block `h`, of the 80-byte header built on the hash of its parent. -/
def hashAt : Nat → BlockHash
  | 0 => c.genesisHash
  | h + 1 =>
    match c.headers[h]? with
    | some newHeader => hashHeader (newHeader.intoHeader (hashAt h) (c.difficultyAt (h + 1)).1)
    | none => hashAt h

/-- The rules for block `h`. -/
structure BlockValid (h : Nat) : Prop where
  timestamp : c.medianAt h < c.timestampAt h
  pow : ByteCodec.ofLE (c.hashAt hashHeader h).toList ≤ (c.difficultyAt h).2.toNat

/-- The work of block `h`. -/
def workAt (h : Nat) : Nat := 2 ^ 256 / ((c.difficultyAt h).2.toNat + 1)

/-- The hints for all headers: the median of the blocks before each. -/
def medianHints : List BlockTimestamp :=
  (List.range c.headers.length).map fun i => c.medianAt (i + 1)

@[simp] theorem length_timestamps : c.timestamps.length = c.headers.length + 1 := by
  simp [timestamps]

@[simp] theorem length_medianHints : c.medianHints.length = c.headers.length := by
  simp [medianHints]

variable {c}

theorem timestampAt_succ {h : Nat} (hh : h < c.headers.length) :
    c.timestampAt (h + 1) = c.headers[h].timestamp := by
  simp [timestampAt, timestamps, hh]

theorem hashAt_succ {h : Nat} (hh : h < c.headers.length) :
    c.hashAt hashHeader (h + 1) = hashHeader
      (c.headers[h].intoHeader (c.hashAt hashHeader h) (c.difficultyAt (h + 1)).1) := by
  rw [hashAt, List.getElem?_eq_getElem hh]

theorem timestamps_getElem {h : Nat} (hh : h < c.timestamps.length) :
    c.timestamps[h] = c.timestampAt h := by
  rw [timestampAt, List.getD_eq_getElem?_getD, List.getElem?_eq_getElem hh, Option.getD_some]

theorem take_timestamps_succ {h : Nat} (hh : h < c.headers.length) :
    c.timestamps.take (h + 2) = c.timestamps.take (h + 1) ++ [c.timestampAt (h + 1)] := by
  have hlt : h + 1 < c.timestamps.length := by simpa using hh
  rw [List.take_succ_eq_append_getElem hlt, timestamps_getElem hlt]

end Chain

/-! ## Genesis -/

/-- A height-0 state with the mainnet difficulty. -/
structure State.IsGenesis (s : State) : Prop where
  height : s.height = 0
  timestamp : s.timestamps[0] = s.epochStartTimestamp
  nbits : s.currentNbits = GENESIS_NBITS
  target : s.currentTarget = GENESIS_TARGET
  work : workFromTarget GENESIS_TARGET = .ok s.currentWork

/-- The chain of headers above a genesis state. -/
def State.chain (s : State) (headers : List NewHeader) : Chain :=
  ⟨s.blockHash, s.epochStartTimestamp, headers⟩

/-! ## What a state remembers -/

/-- The slots of a state's ring. -/
def State.slot (s : State) (i : Nat) : BlockTimestamp := s.timestamps.toList.getD i 0

theorem slot_eq_getElem (s : State) {i : Nat} (hi : i < WINDOW_SIZE) :
    s.slot i = s.timestamps[i] := by
  have hlt : i < s.timestamps.toList.length := by rwa [Vector.length_toList]
  rw [State.slot, List.getD_eq_getElem?_getD, List.getElem?_eq_getElem hlt, Option.getD_some,
    Vector.getElem_toList]

theorem tipTimestamp_eq_slot (s : State) : s.tipTimestamp = s.slot (s.height.toNat % WINDOW_SIZE) :=
  (slot_eq_getElem s (Nat.mod_lt _ WINDOW_SIZE_pos)).symm

theorem trackedTimestamps_eq (s : State) :
    s.trackedTimestamps = (List.range (min (s.height.toNat + 1) WINDOW_SIZE)).map s.slot := by
  apply List.ext_getElem
  · rw [length_trackedTimestamps, List.length_map, List.length_range]
    rfl
  · intro i h1 h2
    have hlt : i < s.timestamps.toList.length := by
      rw [State.trackedTimestamps, List.length_take] at h1
      omega
    rw [List.getElem_map, List.getElem_range, State.slot, List.getD_eq_getElem?_getD,
      List.getElem?_eq_getElem hlt, Option.getD_some]
    exact List.getElem_take

/-- Extending a state writes one slot. -/
theorem slot_extend (hashHeader : Header → BlockHash) (s : State) (nh : NewHeader) {j : Nat}
    (hj : j < WINDOW_SIZE) :
    (s.extend hashHeader nh).slot j =
      if (s.height + 1).toNat % WINDOW_SIZE = j then nh.timestamp else s.slot j := by
  rw [slot_eq_getElem _ hj, slot_eq_getElem _ hj]
  have hk : (s.height + 1).toNat % WINDOW_SIZE < WINDOW_SIZE := Nat.mod_lt _ WINDOW_SIZE_pos
  show (s.timestamps.set ((s.height + 1).toNat % WINDOW_SIZE) nh.timestamp hk)[j] = _
  rw [Vector.getElem_set]

/-- **The state after the first `h` headers of a chain**: the ring represents the timestamps, the
epoch start is the last boundary, difficulty and tip are the chain's, and the work of every
block was added. -/
structure ChainInv (hashHeader : Header → BlockHash) (c : Chain) (work0 : Nat) (h : Nat)
    (s : State) : Prop where
  height : s.height.toNat = h
  ring : Represents WINDOW_SIZE s.slot (c.timestamps.take (h + 1))
  epochStart : s.epochStartTimestamp = c.timestampAt (h / 2016 * 2016)
  nbits : s.currentNbits = (c.difficultyAt h).1
  target : s.currentTarget = (c.difficultyAt h).2
  work : workFromTarget s.currentTarget = .ok s.currentWork
  tip : s.blockHash = c.hashAt hashHeader h
  chainWork : s.chainWork.toNat = (work0 + ∑ k ∈ Finset.range h, c.workAt (k + 1)) % 2 ^ 256

section Invariant

variable {hashHeader : Header → BlockHash} {c : Chain} {work0 h : Nat} {s : State}

theorem ChainInv.start {s : State} (hs : s.IsGenesis) (headers : List NewHeader) :
    ChainInv hashHeader (s.chain headers) s.chainWork.toNat 0 s where
  height := by rw [hs.height]; rfl
  ring := Represents.singleton (by
    rw [slot_eq_getElem _ WINDOW_SIZE_pos]
    exact hs.timestamp)
  epochStart := rfl
  nbits := hs.nbits
  target := hs.target
  work := by rw [hs.target]; exact hs.work
  tip := rfl
  chainWork := by
    rw [Finset.sum_range_zero, Nat.add_zero, Nat.mod_eq_of_lt s.chainWork.toNat_lt]

/-- The state's median is the chain's. -/
theorem ChainInv.median (hinv : ChainInv hashHeader c work0 h s) (hh : h ≤ c.headers.length) :
    s.medianTimePast = c.medianAt (h + 1) := by
  have hlen : (c.timestamps.take (h + 1)).length = h + 1 := by
    rw [List.length_take, Chain.length_timestamps]
    omega
  have hperm := hinv.ring.slots_perm
  have hwin := length_window WINDOW_SIZE (c.timestamps.take (h + 1))
  rw [hlen] at hperm hwin
  have hcount : s.timestampCount = (c.windowAt (h + 1)).length := by
    rw [Chain.windowAt, hwin, State.timestampCount, hinv.height]
  rw [State.medianTimePast, Chain.medianAt, hcount, trackedTimestamps_eq, hinv.height,
    Rank.kthSmallest_perm hperm]
  rfl

/-- The state's next difficulty is the chain's. -/
theorem ChainInv.nextDifficulty (hinv : ChainInv hashHeader c work0 h s)
    (hh : h ≤ c.headers.length) (hbound : h + 1 < 2 ^ 32) :
    (s.nextDifficulty.nbits, s.nextDifficulty.target) = c.difficultyAt (h + 1) ∧
      workFromTarget s.nextDifficulty.target = .ok s.nextDifficulty.work := by
  have hsucc : (s.height + 1).toNat = h + 1 := by
    rw [toNat_add_one (by rwa [hinv.height]), hinv.height]
  have hboundary : (s.height + 1) % EPOCH_LENGTH = 0 ↔ 2016 ∣ h + 1 := by
    rw [mod_EPOCH_LENGTH_eq_zero, hsucc, Nat.dvd_iff_mod_eq_zero]
  unfold State.nextDifficulty
  rw [Chain.difficultyAt]
  by_cases hb : 2016 ∣ h + 1
  · rw [if_pos (hboundary.2 hb), if_pos hb]
    have hstart : h / 2016 * 2016 = h + 1 - 2016 := by
      obtain ⟨k, hk⟩ := hb
      omega
    have htip : s.tipTimestamp = c.timestampAt h := by
      have hlt : h < (c.timestamps.take (h + 1)).length := by
        rw [List.length_take, Chain.length_timestamps]
        omega
      have hslot := hinv.ring.slot_eq hlt (by
        rw [List.length_take, WINDOW_SIZE_eq]
        omega)
      rw [List.getElem_take, Chain.timestamps_getElem] at hslot
      rw [tipTimestamp_eq_slot, hinv.height]
      exact hslot
    have hprep := (prepareNewEpoch_spec (prepareNewEpoch_eq s))
    rw [hinv.target, hinv.epochStart, htip, hstart] at hprep
    exact hprep
  · rw [if_neg (fun h0 => hb (hboundary.1 h0)), if_neg hb]
    exact ⟨Prod.ext hinv.nbits hinv.target, hinv.work⟩

/-- **One header is accepted exactly when its block is valid.** -/
theorem acceptHeader_iff_blockValid (hinv : ChainInv hashHeader c work0 h s)
    (hh : h < c.headers.length) (hbound : h + 1 < 2 ^ 32) :
    (∃ s', acceptHeader hashHeader s c.headers[h] = .ok s') ↔
      c.BlockValid hashHeader (h + 1) := by
  have hmed := hinv.median hh.le
  obtain ⟨hdiff, _⟩ := hinv.nextDifficulty hh.le hbound
  have hcand : hashHeader (s.candidate c.headers[h]) = c.hashAt hashHeader (h + 1) := by
    rw [Chain.hashAt_succ hashHeader hh, ← hdiff, ← hinv.tip]
    rfl
  constructor
  · rintro ⟨s', hs'⟩
    obtain ⟨hts, hpow, _⟩ := acceptHeader_ok.1 hs'
    refine ⟨?_, ?_⟩
    · rw [← hmed, Chain.timestampAt_succ hh]
      exact hts
    · rw [← hcand, ← hdiff]
      exact checkProofOfWork_iff.1 hpow
  · rintro ⟨hts, hpow⟩
    rw [← hmed, Chain.timestampAt_succ hh] at hts
    rw [← hcand, ← hdiff] at hpow
    exact ⟨_, acceptHeader_ok.2 ⟨hts, checkProofOfWork_iff.2 hpow, rfl⟩⟩

/-- **Accepting a header keeps the invariant.** -/
theorem ChainInv.step (hinv : ChainInv hashHeader c work0 h s) (hh : h < c.headers.length)
    (hbound : h + 1 < 2 ^ 32) {s' : State}
    (hs' : acceptHeader hashHeader s c.headers[h] = .ok s') :
    ChainInv hashHeader c work0 (h + 1) s' := by
  obtain ⟨hdiff, hwork⟩ := hinv.nextDifficulty hh.le hbound
  obtain ⟨_, _, rfl⟩ := acceptHeader_ok.1 hs'
  have hsucc : (s.height + 1).toNat = h + 1 := by
    rw [toNat_add_one (by rwa [hinv.height]), hinv.height]
  have hboundary : (s.height + 1) % EPOCH_LENGTH = 0 ↔ (h + 1) % 2016 = 0 := by
    rw [mod_EPOCH_LENGTH_eq_zero, hsucc]
  have hlen : (c.timestamps.take (h + 1)).length = h + 1 := by
    rw [List.length_take, Chain.length_timestamps]
    omega
  refine ⟨hsucc, ?_, ?_, ?_, ?_, hwork, ?_, ?_⟩
  · rw [Chain.take_timestamps_succ hh]
    refine hinv.ring.push WINDOW_SIZE_pos ?_ fun j hj hne => ?_
    · rw [hlen, slot_extend _ _ _ (Nat.mod_lt _ WINDOW_SIZE_pos), hsucc, if_pos rfl,
        Chain.timestampAt_succ hh]
    · rw [hlen] at hne
      rw [slot_extend _ _ _ hj, hsucc, if_neg (Ne.symm hne)]
  · show (if (s.height + 1) % EPOCH_LENGTH = 0 then c.headers[h].timestamp
      else s.epochStartTimestamp) = _
    by_cases hb : (h + 1) % 2016 = 0
    · rw [if_pos (hboundary.2 hb), show (h + 1) / 2016 * 2016 = h + 1 by omega,
        Chain.timestampAt_succ hh]
    · rw [if_neg (fun h0 => hb (hboundary.1 h0)), hinv.epochStart,
        show (h + 1) / 2016 = h / 2016 by omega]
  · rw [← hdiff]; rfl
  · rw [← hdiff]; rfl
  · rw [Chain.hashAt_succ hashHeader hh, ← hdiff, ← hinv.tip]; rfl
  · show (s.chainWork + s.nextDifficulty.work).toNat = _
    have hw := toNat_workFromTarget hwork
    rw [show s.nextDifficulty.target = (c.difficultyAt (h + 1)).2 by rw [← hdiff]] at hw
    rw [U256.toNat_add, hinv.chainWork, hw, Finset.sum_range_succ, Nat.mod_add_mod,
      Nat.add_mod_mod, Nat.add_assoc]
    rfl

/-- The invariant after any prefix that is accepted. -/
theorem ChainInv.run {s0 : State} (h0 : ChainInv hashHeader c work0 0 s0) :
    ∀ {i : Nat}, i ≤ c.headers.length → i < 2 ^ 32 → ∀ {s : State},
    (c.headers.take i).foldlM (acceptHeader hashHeader) s0 = .ok s →
    ChainInv hashHeader c work0 i s := by
  intro i
  induction i with
  | zero =>
    intro _ _ s h
    rw [List.take_zero, foldlM_nil_ok] at h
    rw [← h]
    exact h0
  | succ i ih =>
    intro hi hbound s h
    rw [List.take_succ_eq_append_getElem hi, foldlM_append_ok_iff] at h
    obtain ⟨t, ht, hstep⟩ := h
    obtain ⟨s', hacc, hnil⟩ := foldlM_cons_ok.1 hstep
    rw [foldlM_nil_ok] at hnil
    rw [← hnil]
    exact (ih (Nat.le_of_succ_le hi) (by omega) ht).step hi hbound hacc

/-- A prefix is accepted exactly when its blocks are valid. -/
theorem ChainInv.accepts_iff {s0 : State} (h0 : ChainInv hashHeader c work0 0 s0) :
    ∀ {i : Nat}, i ≤ c.headers.length → i < 2 ^ 32 →
    ((∃ s, (c.headers.take i).foldlM (acceptHeader hashHeader) s0 = .ok s) ↔
      ∀ h, 1 ≤ h → h ≤ i → c.BlockValid hashHeader h)
  | 0, _, _ => ⟨fun _ h h1 h2 => by omega, fun _ => ⟨s0, rfl⟩⟩
  | i + 1, hi, hbound => by
    have ih := ChainInv.accepts_iff h0 (Nat.le_of_succ_le hi) (by omega)
    rw [List.take_succ_eq_append_getElem hi]
    constructor
    · rintro ⟨s, hs⟩ h h1 h2
      obtain ⟨t, ht, hstep⟩ := foldlM_append_ok_iff.1 hs
      obtain ⟨s', hacc, _⟩ := foldlM_cons_ok.1 hstep
      rcases Nat.lt_or_eq_of_le h2 with hlt | rfl
      · exact ih.1 ⟨t, ht⟩ h h1 (by omega)
      · exact (acceptHeader_iff_blockValid (h0.run (Nat.le_of_succ_le hi) (by omega) ht) hi
          hbound).1 ⟨s', hacc⟩
    · intro hvalid
      obtain ⟨t, ht⟩ := ih.2 fun h h1 h2 => hvalid h h1 (by omega)
      obtain ⟨s', hacc⟩ := (acceptHeader_iff_blockValid
        (h0.run (Nat.le_of_succ_le hi) (by omega) ht) hi hbound).2
        (hvalid (i + 1) (by omega) (Nat.le_refl _))
      exact ⟨s', by rw [foldlM_append_ok ht, foldlM_cons_of_ok hacc]; rfl⟩

end Invariant

/-- The true medians are correct hints. -/
theorem hintsCorrect_medianHints (hashHeader : Header → BlockHash) {s : State}
    (hs : s.IsGenesis) {headers : List NewHeader} (hlen : headers.length < 2 ^ 32) :
    HintsCorrect hashHeader s headers (s.chain headers).medianHints where
  length_eq := (Chain.length_medianHints (s.chain headers)).symm
  median i hi s' hs' := by
    have hi' : i < headers.length := by rwa [Chain.length_medianHints] at hi
    have h0 : ChainInv hashHeader (s.chain headers) s.chainWork.toNat 0 s := .start hs headers
    have hinv := h0.run (Nat.le_of_lt hi') (by omega) hs'
    rw [hinv.median (Nat.le_of_lt hi')]
    simp [Chain.medianHints]

/-- **`apply_headers` accepts exactly the chains all of whose blocks are valid**, and the state it
reaches has the chain's height, tip hash and work. -/
theorem applyHeaders_accepts_iff (hashHeader : Header → BlockHash) {s : State}
    (hs : s.IsGenesis) (headers : List NewHeader) (hlen : headers.length < 2 ^ 32 - 1) :
    ((∃ t, applyHeaders hashHeader s headers (s.chain headers).medianHints = .ok (t, .ok ())) ↔
      ∀ h, 1 ≤ h → h ≤ headers.length → (s.chain headers).BlockValid hashHeader h) ∧
    (∀ t, applyHeaders hashHeader s headers (s.chain headers).medianHints = .ok (t, .ok ()) →
      t.height.toNat = headers.length ∧
      t.blockHash = (s.chain headers).hashAt hashHeader headers.length ∧
      t.chainWork.toNat = (s.chainWork.toNat +
        ∑ k ∈ Finset.range headers.length, (s.chain headers).workAt (k + 1)) % 2 ^ 256) := by
  have hlen' : headers.length < 2 ^ 32 := by omega
  have h0 : ChainInv hashHeader (s.chain headers) s.chainWork.toNat 0 s :=
    ChainInv.start hs headers
  have hhints := hintsCorrect_medianHints hashHeader hs hlen'
  have hfull : (s.chain headers).headers.take headers.length = headers := List.take_length
  have hiff := h0.accepts_iff (i := headers.length) (Nat.le_refl _) hlen'
  rw [hfull] at hiff
  constructor
  · rw [← hiff]
    constructor
    · rintro ⟨t, ht⟩
      exact ⟨t, (applyHeaders_ok.1 ht).2⟩
    · rintro ⟨t, ht⟩
      exact ⟨t, applyHeaders_ok.2 ⟨hhints, ht⟩⟩
  · intro t ht
    have hinv := h0.run (i := headers.length) (Nat.le_refl _) hlen' (s := t) (by
      rw [hfull]
      exact (applyHeaders_ok.1 ht).2)
    exact ⟨hinv.height, hinv.tip, hinv.chainWork⟩

theorem testState_isGenesis : testState.IsGenesis where
  height := rfl
  timestamp := rfl
  nbits := rfl
  target := rfl
  work := by decide +kernel

/-- Two headers with increasing timestamps are two valid blocks. -/
theorem applyHeaders_accepts_testState :
    (testState.chain [headerAt 1, headerAt 2]).BlockValid zeroHash 1 ∧
      (testState.chain [headerAt 1, headerAt 2]).BlockValid zeroHash 2 := by
  have hvalid := (applyHeaders_accepts_iff zeroHash testState_isGenesis [headerAt 1, headerAt 2]
    (by decide)).1.1
    ⟨(testState.extend zeroHash (headerAt 1)).extend zeroHash (headerAt 2), by decide +kernel⟩
  exact ⟨hvalid 1 (by decide) (by decide), hvalid 2 (by decide) (by decide)⟩

end Zkpow
