import Mathlib.Tactic
import Zkpow.State

/-!
# One header at a time

`acceptHeader` extends a state by one header with no hint and no pending work: the median is
computed, the work of the header is added at once.  It is the meaning `apply_headers` has.

* `applyStep_hintedStep` — one turn of the loop is one accepted header, seen through the flush
  of the pending work;
* `applyHeaders_ok_iff` — `apply_headers` returns exactly when every hint it reaches is the true
  median, and then its outcome is that of accepting the headers one at a time.
-/

set_option autoImplicit false

namespace Zkpow

open ExceptFold

variable {hashHeader : Header → BlockHash}

/-! ## Accepting one header -/

/-- The work of a target within the proof-of-work limit. -/
def workBelowLimit (target : Target) (h : target ≤ GENESIS_TARGET) : ChainWork :=
  match hw : workFromTarget target with
  | .ok work => work
  | .error _ => False.elim (by
      obtain ⟨w, hok⟩ := workFromTarget_ok h
      rw [hok] at hw
      cases hw)

theorem workBelowLimit_spec {target : Target} (h : target ≤ GENESIS_TARGET) :
    workFromTarget target = .ok (workBelowLimit target h) := by
  unfold workBelowLimit
  split
  · assumption
  · rename_i e hw
    obtain ⟨w, hok⟩ := workFromTarget_ok h
    rw [hok] at hw
    cases hw

/-- The difficulty a retarget at the state's tip leads to. -/
def State.retargeted (s : State) : Difficulty :=
  let r := calculateNextTargetRequired s.currentTarget s.epochStartTimestamp s.tipTimestamp
  ⟨r.1, r.2, workBelowLimit r.2 (calculateNextTargetRequired_le _ _ _)⟩

/-- `prepare_new_epoch` computes it. -/
theorem prepareNewEpoch_eq (s : State) : s.prepareNewEpoch s.tipTimestamp = .ok s.retargeted := by
  have hw := workBelowLimit_spec (calculateNextTargetRequired_le s.currentTarget
    s.epochStartTimestamp s.tipTimestamp)
  unfold State.prepareNewEpoch State.retargeted
  simp only [hw]
  rfl

/-- The difficulty of the next header: retargeted at every multiple of the epoch length. -/
def State.nextDifficulty (s : State) : Difficulty :=
  if (s.height + 1) % EPOCH_LENGTH = 0 then s.retargeted else s.difficulty

/-- The full header a new header stands for on top of a state. -/
def State.candidate (s : State) (newHeader : NewHeader) : Header :=
  newHeader.intoHeader s.blockHash s.nextDifficulty.nbits

/-- The state with the header as its tip and its work added. -/
def State.extend (hashHeader : Header → BlockHash) (s : State) (newHeader : NewHeader) : State :=
  let header := s.candidate newHeader
  { s.assign (s.height + 1) s.nextDifficulty header (hashHeader header) with
    chainWork := s.chainWork + s.nextDifficulty.work }

/-- Extend a state by one header, or say what is wrong with the header. -/
def acceptHeader (hashHeader : Header → BlockHash) (s : State) (newHeader : NewHeader) :
    Except ApplyFailure State :=
  if newHeader.timestamp ≤ s.medianTimePast then
    .error ⟨s, .timestampTooOld, s.height + 1⟩
  else if checkProofOfWork (hashHeader (s.candidate newHeader)) s.nextDifficulty.target then
    .ok (s.extend hashHeader newHeader)
  else .error ⟨s, .powInsufficient, s.height + 1⟩

/-- What one accepted header does. -/
theorem acceptHeader_ok {s s' : State} {nh : NewHeader} :
    acceptHeader hashHeader s nh = .ok s' ↔ s.medianTimePast < nh.timestamp ∧
      checkProofOfWork (hashHeader (s.candidate nh)) s.nextDifficulty.target = true ∧
      s' = s.extend hashHeader nh := by
  unfold acceptHeader
  split
  · rename_i hts
    constructor
    · intro h; cases h
    · rintro ⟨h, _⟩; exact absurd hts (not_le.2 h)
  split
  · rename_i hts hpow
    constructor
    · intro h; cases h; exact ⟨not_le.1 hts, hpow, rfl⟩
    · rintro ⟨_, _, rfl⟩; rfl
  · rename_i hts hpow
    constructor
    · intro h; cases h
    · rintro ⟨_, h, _⟩; exact absurd h hpow

/-- What a rejection reports. -/
theorem acceptHeader_error {s : State} {nh : NewHeader} {f : ApplyFailure} :
    acceptHeader hashHeader s nh = .error f ↔
      (nh.timestamp ≤ s.medianTimePast ∧ f = ⟨s, .timestampTooOld, s.height + 1⟩) ∨
      (s.medianTimePast < nh.timestamp ∧
        checkProofOfWork (hashHeader (s.candidate nh)) s.nextDifficulty.target = false ∧
        f = ⟨s, .powInsufficient, s.height + 1⟩) := by
  unfold acceptHeader
  split
  · rename_i hts
    constructor
    · intro h; cases h; exact .inl ⟨hts, rfl⟩
    · rintro (⟨_, rfl⟩ | ⟨h, _⟩)
      · rfl
      · exact absurd hts (not_le.2 h)
  split
  · rename_i hts hpow
    constructor
    · intro h; cases h
    · rintro (⟨h, _⟩ | ⟨_, h, _⟩)
      · exact absurd h hts
      · rw [hpow] at h; cases h
  · rename_i hts hpow
    constructor
    · intro h; cases h; exact .inr ⟨not_le.1 hts, by simpa using hpow, rfl⟩
    · rintro (⟨h, _⟩ | ⟨_, _, rfl⟩)
      · exact absurd h hts
      · rfl

/-- A rejection keeps the state it was made in. -/
theorem acceptHeader_lastValidState {s : State} {nh : NewHeader} {f : ApplyFailure}
    (h : acceptHeader hashHeader s nh = .error f) :
    f.lastValidState = s ∧ f.failureHeight = s.height + 1 := by
  rcases acceptHeader_error.1 h with ⟨_, rfl⟩ | ⟨_, _, rfl⟩ <;> exact ⟨rfl, rfl⟩

/-! ## Pending work -/

/-- A flush touches the chain work only. -/
theorem flush_eq (s : State) (p : Pending) :
    s.flush p = { s with chainWork := (s.flush p).chainWork } := by
  unfold State.flush State.applyChainWorkRun
  split
  · split <;> rfl
  · rfl

@[simp] theorem flush_empty (s : State) : s.flush .empty = s := rfl

theorem toNat_flush_some (s : State) (w : ChainWork) (n : UInt32) :
    (s.flush ⟨some w, n⟩).chainWork.toNat =
      (s.chainWork.toNat + w.toNat * n.toNat) % 2 ^ 256 := by
  unfold State.flush State.applyChainWorkRun
  simp only
  split
  · rw [U256.toNat_add, U256.toNat_mulU32, Nat.add_mod_mod]
  · rename_i h0
    have hn : n.toNat = 0 := by
      rw [gt_iff_lt, UInt32.lt_iff_toNat_lt] at h0
      exact Nat.eq_zero_of_not_pos h0
    rw [hn, Nat.mul_zero, Nat.add_zero, Nat.mod_eq_of_lt s.chainWork.toNat_lt]

/-- Counting one more header and flushing is flushing and adding its work, as long as the count
does not wrap. -/
theorem flush_countWork (s : State) (p : Pending) (w : ChainWork)
    (hp : p.runCount.toNat + 1 < 2 ^ 32) :
    (s.countWork p w).1.flush (s.countWork p w).2 =
      { s.flush p with chainWork := (s.flush p).chainWork + w } := by
  unfold State.countWork
  split
  · rw [flush_eq (s.flush p) ⟨some w, 0 + 1⟩]
    congr 1
    apply U256.toNat_inj
    rw [toNat_flush_some, U256.toNat_add, show (0 + 1 : UInt32).toNat = 1 from rfl, Nat.mul_one]
  · rename_i hw
    obtain ⟨runWork, runCount⟩ := p
    have hrun : runWork = some w := not_not.1 hw
    subst hrun
    have hcount : (runCount + 1).toNat = runCount.toNat + 1 := toNat_add_one hp
    rw [flush_eq s ⟨some w, runCount + 1⟩, flush_eq s ⟨some w, runCount⟩]
    congr 1
    apply U256.toNat_inj
    rw [toNat_flush_some, U256.toNat_add, toNat_flush_some, hcount, Nat.mod_add_mod,
      Nat.mul_add, Nat.mul_one, Nat.add_assoc]

theorem flush_assign (s : State) (h : UInt32) (d : Difficulty) (hdr : Header) (b : BlockHash)
    (p : Pending) : (s.assign h d hdr b).flush p = (s.flush p).assign h d hdr b := by
  unfold State.flush State.applyChainWorkRun State.assign
  split
  · split <;> rfl
  · rfl

/-! ## The loop body -/

/-- The state the loop stands for, and the bound that keeps the run count from wrapping: a run
is at most as long as the epoch so far. -/
structure Deferred (st : State × Pending) (s : State) : Prop where
  state : s = st.1.flush st.2
  count_le : st.2.runCount.toNat ≤ st.1.height.toNat % 2016 + 1

theorem Deferred.start (s : State) : Deferred (s, .empty) s :=
  ⟨rfl, by show 0 ≤ _; omega⟩

/-- One hinted header: the hint must be the median. -/
def hintedStep (hashHeader : Header → BlockHash) (s : State)
    (item : (NewHeader × BlockTimestamp) × Nat) : Except Stop State :=
  if item.1.2 = s.medianTimePast then
    (acceptHeader hashHeader s item.1.1).mapError fun f => .fail f.lastValidState f
  else .error (.panic (.invalidMedianHint item.2))

/-- At a boundary the retarget is prepared on the flushed state; elsewhere nothing happens. -/
theorem activate_spec {self s : State} {p : Pending} (hs : s = self.flush p) :
    ∃ self' p', activate self p (self.height + 1) self.tipTimestamp =
        .ok (self', p', s.nextDifficulty) ∧ s = self'.flush p' ∧
      self' = { self with chainWork := self'.chainWork } ∧
      (p' = .empty ∧ (self.height + 1) % EPOCH_LENGTH = 0 ∨
        p' = p ∧ (self.height + 1) % EPOCH_LENGTH ≠ 0) := by
  have hflush := flush_eq self p
  have hs' : s = { self with chainWork := (self.flush p).chainWork } := hs.trans hflush
  unfold activate State.nextDifficulty
  by_cases hb : (self.height + 1) % EPOCH_LENGTH = 0
  · have hb' : (s.height + 1) % EPOCH_LENGTH = 0 := by rw [hs']; exact hb
    have hprep : s.prepareNewEpoch self.tipTimestamp = .ok s.retargeted := by
      rw [← prepareNewEpoch_eq, show s.tipTimestamp = self.tipTimestamp by rw [hs']; rfl]
    rw [if_pos hb, if_pos hb', ← hs]
    simp only [hprep]
    exact ⟨s, .empty, rfl, rfl, by rw [hs'], .inl ⟨rfl, hb⟩⟩
  · have hb' : ¬ (s.height + 1) % EPOCH_LENGTH = 0 := by rw [hs']; exact hb
    rw [if_neg hb, if_neg hb', show s.difficulty = self.difficulty by rw [hs']; rfl]
    exact ⟨self, p, rfl, hs, rfl, .inr ⟨rfl, hb⟩⟩

/-- Inside an epoch the position in the epoch advances by one. -/
theorem succ_mod_epoch {height : UInt32} (h : (height + 1) % EPOCH_LENGTH ≠ 0) :
    (height + 1).toNat % 2016 = height.toNat % 2016 + 1 := by
  have hadd : (height + 1).toNat = (height.toNat + 1) % 2 ^ 32 := UInt32.toNat_add height 1
  have hmod : (height + 1).toNat % 2016 ≠ 0 := fun h0 => h (mod_EPOCH_LENGTH_eq_zero.2 h0)
  have hlt := height.toNat_lt
  by_cases hwrap : height.toNat + 1 = 2 ^ 32
  · rw [hadd, hwrap] at hmod
    exact absurd rfl hmod
  · have hsucc : height.toNat + 1 < 2 ^ 32 := by omega
    rw [hadd, Nat.mod_eq_of_lt hsucc] at hmod ⊢
    omega

/-- The run count stays within the epoch. -/
theorem count_le_step {height : UInt32} {p p' : Pending} {s : State} {w : ChainWork}
    (hc : p.runCount.toNat ≤ height.toNat % 2016 + 1)
    (hp : p' = .empty ∧ (height + 1) % EPOCH_LENGTH = 0 ∨
      p' = p ∧ (height + 1) % EPOCH_LENGTH ≠ 0) :
    p'.runCount.toNat + 1 < 2 ^ 32 ∧
      (s.countWork p' w).2.runCount.toNat ≤ (height + 1).toNat % 2016 + 1 := by
  have hcount : p'.runCount.toNat ≤ 2016 ∧
      p'.runCount.toNat ≤ (height + 1).toNat % 2016 := by
    rcases hp with ⟨rfl, _⟩ | ⟨rfl, hne⟩
    · exact ⟨Nat.zero_le _, Nat.zero_le _⟩
    · rw [succ_mod_epoch hne]
      omega
  refine ⟨by omega, ?_⟩
  unfold State.countWork
  split
  · show 1 ≤ _
    omega
  · show (p'.runCount + 1).toNat ≤ _
    rw [toNat_add_one (by omega)]
    omega

/-- **One turn of the loop is one hinted header**, seen through the flush. -/
theorem applyStep_hintedStep (hashHeader : Header → BlockHash) {st : State × Pending} {s : State}
    (h : Deferred st s) (item : (NewHeader × BlockTimestamp) × Nat) :
    Agree Deferred (· = ·) (applyStep hashHeader st item) (hintedStep hashHeader s item) := by
  obtain ⟨self, p⟩ := st
  obtain ⟨⟨nh, m⟩, i⟩ := item
  obtain ⟨hs, hcount⟩ := h
  simp only at hs hcount
  have hs' : s = { self with chainWork := (self.flush p).chainWork } := hs.trans (flush_eq self p)
  have hmed : self.medianTimePast = s.medianTimePast := by rw [hs']; rfl
  unfold applyStep hintedStep
  simp only
  by_cases hm : m = s.medianTimePast
  · have hhint : self.medianTimePastHinted m = true := medianTimePastHinted_iff.2 (hmed ▸ hm)
    rw [if_neg (by rw [hhint]; decide), if_pos hm]
    have hheight : s.height = self.height := by rw [hs']
    by_cases hts : nh.timestamp ≤ m
    · rw [if_pos hts, acceptHeader_error.2 (.inl ⟨hm ▸ hts, rfl⟩)]
      refine .error ?_
      rw [← hs, hheight]
    · rw [if_neg hts]
      obtain ⟨self', p', hact, hflush', hself', hp'⟩ := activate_spec hs
      rw [hact]
      have hhash : s.blockHash = self'.blockHash := by rw [hself', hs']
      simp only [bind, Except.bind, ← hhash]
      rw [show nh.intoHeader s.blockHash s.nextDifficulty.nbits = s.candidate nh from rfl]
      by_cases hpow : checkProofOfWork (hashHeader (s.candidate nh)) s.nextDifficulty.target = true
      · rw [if_neg (by rw [hpow]; decide),
          acceptHeader_ok.2 ⟨lt_of_not_ge (hm ▸ hts), hpow, rfl⟩]
        obtain ⟨hfit, hcount'⟩ := count_le_step (s := self') (w := s.nextDifficulty.work) hcount hp'
        refine .ok ⟨?_, hcount'⟩
        show s.extend hashHeader nh = _
        rw [flush_assign, flush_countWork _ _ _ hfit, ← hflush', ← hheight]
        rfl
      · have hpow' : checkProofOfWork (hashHeader (s.candidate nh)) s.nextDifficulty.target
            = false := by simpa using hpow
        rw [if_pos hpow', acceptHeader_error.2 (.inr ⟨lt_of_not_ge (hm ▸ hts), hpow', rfl⟩)]
        refine .error ?_
        rw [← hflush', hheight]
  · have hhint : self.medianTimePastHinted m = false := by
      rw [Bool.eq_false_iff, ne_eq, medianTimePastHinted_iff, hmed]
      exact hm
    rw [if_pos hhint, if_neg hm]
    exact .error rfl

/-! ## Runs -/

/-- Each hint is the median of the state its header is applied to. -/
structure HintsCorrect (hashHeader : Header → BlockHash) (s : State) (headers : List NewHeader)
    (medianHints : List BlockTimestamp) : Prop where
  length_eq : headers.length = medianHints.length
  median : ∀ (i : Nat) (hi : i < medianHints.length) (s' : State),
    (headers.take i).foldlM (acceptHeader hashHeader) s = .ok s' →
    medianHints[i] = s'.medianTimePast

/-- `self` and the returned `Result` of a batch. -/
def outcome : Except ApplyFailure State → State × Except ApplyFailure Unit
  | .ok s => (s, .ok ())
  | .error f => (f.lastValidState, .error f)

theorem hintsCorrect_nil (s : State) : HintsCorrect hashHeader s [] [] :=
  ⟨rfl, fun _ hi => absurd hi (Nat.not_lt_zero _)⟩

theorem hintsCorrect_cons {s : State} {nh : NewHeader} {m : BlockTimestamp}
    {headers : List NewHeader} {hints : List BlockTimestamp} :
    HintsCorrect hashHeader s (nh :: headers) (m :: hints) ↔
      m = s.medianTimePast ∧ headers.length = hints.length ∧
        ∀ s', acceptHeader hashHeader s nh = .ok s' →
          HintsCorrect hashHeader s' headers hints := by
  constructor
  · rintro ⟨hlen, hmed⟩
    refine ⟨hmed 0 (Nat.succ_pos _) s rfl, by simpa using hlen, fun s' hs' => ⟨by simpa using hlen,
      fun i hi t ht => ?_⟩⟩
    refine hmed (i + 1) (Nat.succ_lt_succ hi) t ?_
    rw [List.take_succ_cons, foldlM_cons_of_ok hs']
    exact ht
  · rintro ⟨hm, hlen, hrest⟩
    refine ⟨by simpa using hlen, fun i hi t ht => ?_⟩
    cases i with
    | zero =>
      rw [List.take_zero, foldlM_nil_ok] at ht
      rw [← ht]
      exact hm
    | succ i =>
      rw [List.take_succ_cons, foldlM_cons_ok] at ht
      obtain ⟨s', hs', ht'⟩ := ht
      exact (hrest s' hs').median i (Nat.lt_of_succ_lt_succ hi) t ht'

/-- The hinted headers in turn: with correct hints, the headers; else some hint is refused. -/
theorem foldlM_hintedStep (hashHeader : Header → BlockHash) : ∀ {headers : List NewHeader}
    {hints : List BlockTimestamp} {s : State} (k : Nat), headers.length = hints.length →
    (HintsCorrect hashHeader s headers hints ∧
      ((headers.zip hints).zipIdx k).foldlM (hintedStep hashHeader) s =
        (headers.foldlM (acceptHeader hashHeader) s).mapError
          fun f => .fail f.lastValidState f) ∨
    (¬ HintsCorrect hashHeader s headers hints ∧ ∃ i,
      ((headers.zip hints).zipIdx k).foldlM (hintedStep hashHeader) s =
        .error (.panic (.invalidMedianHint i)))
  | [], [], s, _, _ => .inl ⟨hintsCorrect_nil s, rfl⟩
  | nh :: headers, m :: hints, s, k, hlen => by
    have hlen' : headers.length = hints.length := by simpa using hlen
    rw [hintsCorrect_cons, List.zip_cons_cons, List.zipIdx_cons]
    by_cases hm : m = s.medianTimePast
    · cases hacc : acceptHeader hashHeader s nh with
      | error f =>
        have hstep : hintedStep hashHeader s ((nh, m), k) = .error (.fail f.lastValidState f) := by
          unfold hintedStep
          rw [if_pos hm, hacc]
          rfl
        rw [foldlM_cons_of_error hstep, foldlM_cons_of_error hacc]
        exact .inl ⟨⟨hm, hlen', fun s' h => by cases h⟩, rfl⟩
      | ok s' =>
        have hstep : hintedStep hashHeader s ((nh, m), k) = .ok s' := by
          unfold hintedStep
          rw [if_pos hm, hacc]
          rfl
        rw [foldlM_cons_of_ok hstep, foldlM_cons_of_ok hacc]
        rcases foldlM_hintedStep hashHeader (s := s') (k + 1) hlen' with ⟨hc, he⟩ | ⟨hc, i, he⟩
        · exact .inl ⟨⟨hm, hlen', fun t ht => by cases ht; exact hc⟩, he⟩
        · exact .inr ⟨fun h => hc (h.2.2 s' rfl), i, he⟩
    · have hstep : hintedStep hashHeader s ((nh, m), k) =
          .error (.panic (.invalidMedianHint k)) := by
        unfold hintedStep
        rw [if_neg hm]
      rw [foldlM_cons_of_error hstep]
      exact .inr ⟨fun h => hm h.1, k, rfl⟩

/-- The loop with its pending work is the loop without, flushed at its end. -/
theorem applyHeaders_eq {headers : List NewHeader} {hints : List BlockTimestamp} {s : State}
    (hlen : headers.length = hints.length) :
    applyHeaders hashHeader s headers hints =
      match (headers.zip hints).zipIdx.foldlM (hintedStep hashHeader) s with
      | .ok s' => .ok (s', .ok ())
      | .error (.fail self f) => .ok (self, .error f)
      | .error (.panic p) => .error p := by
  unfold applyHeaders
  rw [if_neg (not_not.2 hlen)]
  have hrel := foldlM_rel (A := (· = ·)) (fun st s a b hR hab => by
    rw [← hab]; exact applyStep_hintedStep hashHeader hR a)
    (List.forall₂_refl (headers.zip hints).zipIdx) (Deferred.start s)
  generalize (headers.zip hints).zipIdx.foldlM (applyStep hashHeader) (s, .empty) = x at hrel
  generalize (headers.zip hints).zipIdx.foldlM (hintedStep hashHeader) s = y at hrel
  cases hrel with
  | ok h => simp only; rw [h.state]
  | @error e _ h =>
    rw [← h]
    cases e <;> rfl

/-- **`apply_headers` returns exactly when every hint it reaches is the true median, and its
outcome is then that of accepting the headers one at a time.** -/
theorem applyHeaders_ok_iff {headers : List NewHeader} {hints : List BlockTimestamp} {s : State}
    {r : State × Except ApplyFailure Unit} :
    applyHeaders hashHeader s headers hints = .ok r ↔
      HintsCorrect hashHeader s headers hints ∧
        r = outcome (headers.foldlM (acceptHeader hashHeader) s) := by
  by_cases hlen : headers.length = hints.length
  · rw [applyHeaders_eq hlen]
    rcases foldlM_hintedStep hashHeader (s := s) 0 hlen with ⟨hc, he⟩ | ⟨hc, i, he⟩
    · rw [he]
      cases headers.foldlM (acceptHeader hashHeader) s with
      | ok s' => simp [Except.mapError, outcome, hc, eq_comm]
      | error f => simp [Except.mapError, outcome, hc, eq_comm]
    · rw [he]
      simp [hc]
  · constructor
    · intro h
      unfold applyHeaders at h
      rw [if_pos hlen] at h
      cases h
    · rintro ⟨hc, _⟩
      exact absurd hc.length_eq hlen

/-- With as many hints as headers, only a wrong hint makes `apply_headers` panic. -/
theorem applyHeaders_error {headers : List NewHeader} {hints : List BlockTimestamp} {s : State}
    {p : Panic} (hlen : headers.length = hints.length)
    (h : applyHeaders hashHeader s headers hints = .error p) : ∃ i, p = .invalidMedianHint i := by
  rw [applyHeaders_eq hlen] at h
  rcases foldlM_hintedStep hashHeader (s := s) 0 hlen with ⟨_, he⟩ | ⟨_, i, he⟩
  · rw [he] at h
    cases hfold : headers.foldlM (acceptHeader hashHeader) s with
    | ok s' =>
      rw [hfold] at h
      cases h
    | error f =>
      rw [hfold] at h
      cases h
  · rw [he] at h
    cases h
    exact ⟨i, rfl⟩

/-- **The median hint check is exact**: it accepts `sorted[len / 2]` of the tracked timestamps and
nothing else, so that all hint lists `apply_headers` returns on lead to one result. -/
theorem medianTimePastHinted_exact (hashHeader : Header → BlockHash) :
    (∀ (s : State) (claimedMedian : BlockTimestamp),
      s.medianTimePastHinted claimedMedian = true ↔
        ((s.timestamps.toList.take (min (s.height.toNat + 1) 11)).insertionSort
          (· ≤ ·))[min (s.height.toNat + 1) 11 / 2]? = some claimedMedian) ∧
    (∀ s : State, ∃! claimedMedian, s.medianTimePastHinted claimedMedian = true) ∧
    (∀ (s : State) (headers : List NewHeader),
      {r | ∃ hints, applyHeaders hashHeader s headers hints = .ok r}.Subsingleton) := by
  refine ⟨fun s m => ?_, fun s => ⟨s.medianTimePast, ?_, fun m hm => ?_⟩, fun s headers => ?_⟩
  · have hmedian : ((s.timestamps.toList.take (min (s.height.toNat + 1) 11)).insertionSort
        (· ≤ ·))[min (s.height.toNat + 1) 11 / 2]? = some s.medianTimePast :=
      kthSmallest_medianTimePast s
    rw [medianTimePastHinted_iff, hmedian, Option.some_inj, eq_comm]
  · exact medianTimePastHinted_iff.2 rfl
  · exact medianTimePastHinted_iff.1 hm
  · rintro r ⟨hints, hr⟩ r' ⟨hints', hr'⟩
    rw [(applyHeaders_ok_iff.1 hr).2, (applyHeaders_ok_iff.1 hr').2]

end Zkpow
