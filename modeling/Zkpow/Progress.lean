import Mathlib.Tactic
import Zkpow.Batch

/-!
# Progress: what a header adds to the chain work

A header adds the work of the target it was checked against.  A positive target has positive work,
but a retarget divides, and rounds down: from a target of at most three a short enough epoch leads
to the target zero, whose work does not fit in 256 bits and is computed as zero.

* `retargetsToZero_iff` — which retargets those are;
* `chainWork_of_foldlM` — a run adds the sum of the works, modulo `2^256`;
* `applyHeaders_progress` — every header of a run has positive work exactly if no header of the run
  is such a retarget, and then the chain work grows.
-/

set_option autoImplicit false

namespace Zkpow

open ExceptFold

variable {hashHeader : Header → BlockHash}

/-! ## Retargets to zero -/

/-- The next header is a retarget, and the epoch was too short for so low a target. -/
def State.RetargetsToZero (s : State) : Prop :=
  (s.height + 1) % EPOCH_LENGTH = 0 ∧
    s.currentTarget.toNat *
      (max 302400 (min 4838400 ((s.tipTimestamp.toNat : Int) - s.epochStartTimestamp.toNat))).toNat
      < 1209600

/-- Only a target of at most three is low enough. -/
theorem State.RetargetsToZero.le_three {s : State} (h : s.RetargetsToZero) :
    s.currentTarget.toNat ≤ 3 := by
  obtain ⟨-, hlow⟩ := h
  by_contra hlt
  have hspan : 302400 ≤ (max 302400 (min 4838400
      ((s.tipTimestamp.toNat : Int) - s.epochStartTimestamp.toNat))).toNat := by omega
  have hmul := Nat.mul_le_mul (Nat.succ_le_of_lt (not_le.1 hlt)) hspan
  omega

/-- **The targets that vanish.**  The next target is zero exactly at such a retarget. -/
theorem retargetsToZero_iff {s : State} (hs : s.Consistent) (hpos : 1 ≤ s.currentTarget.toNat) :
    s.RetargetsToZero ↔ s.nextDifficulty.target.toNat = 0 := by
  unfold State.RetargetsToZero State.nextDifficulty
  split
  · rename_i hboundary
    obtain ⟨clamped, hclamped, -, htarget⟩ := calculateNextTargetRequired_eq hs.le_limit
      s.epochStartTimestamp s.tipTimestamp (toNat_clampedTimespan _ _) (by omega)
    have hrounded : s.retargeted.target = targetFromBits (targetToBits clamped) := htarget
    have hlimit : 0 < GENESIS_TARGET.toNat := by rw [GENESIS_TARGET_toNat]; positivity
    rw [hrounded]
    constructor
    · rintro ⟨-, hlow⟩
      have hzero : clamped.toNat = 0 := by rw [hclamped, Nat.div_eq_of_lt hlow, Nat.zero_min]
      exact Nat.le_zero.1 ((targetFromBits_targetToBits_le clamped).trans hzero.le)
    · intro hzero
      refine ⟨hboundary, ?_⟩
      by_contra hhigh
      have hquot := Nat.div_pos (not_lt.1 hhigh) (by norm_num)
      have hkept := targetFromBits_targetToBits_pos (t := clamped) (by omega)
      omega
  · rename_i hinside
    constructor
    · rintro ⟨hboundary, -⟩
      exact absurd hboundary hinside
    · intro hzero
      have hcurrent : s.currentTarget.toNat = 0 := hzero
      omega

/-- The work of a target within the limit is positive exactly if the target is. -/
theorem workFromTarget_pos_iff {t : Target} {w : ChainWork} (ht : t ≤ GENESIS_TARGET)
    (hw : workFromTarget t = .ok w) : 1 ≤ w.toNat ↔ 1 ≤ t.toNat := by
  have hle := U256.le_iff.1 ht
  rw [GENESIS_TARGET_toNat] at hle
  rw [toNat_workFromTarget hw]
  constructor
  · intro hwork
    by_contra hzero
    have ht0 : t.toNat = 0 := by omega
    rw [ht0] at hwork
    omega
  · intro hpos
    have hfits : 2 ^ 256 / (t.toNat + 1) < 2 ^ 256 := Nat.div_lt_self (by positivity) (by omega)
    rw [Nat.mod_eq_of_lt hfits]
    exact Nat.div_pos (by omega) (by omega)

/-! ## One header -/

/-- The target a header was checked against and the work it added are positive. -/
structure AddsWork (s s' : State) : Prop where
  target : 1 ≤ s'.currentTarget.toNat
  work : 1 ≤ s'.currentWork.toNat
  added : s'.chainWork = s.chainWork + s'.currentWork

theorem acceptHeader_addsWork {s s' : State} {nh : NewHeader} (hs : s.Consistent)
    (hpos : 1 ≤ s.currentTarget.toNat) (h : acceptHeader hashHeader s nh = .ok s') :
    AddsWork s s' ↔ ¬ s.RetargetsToZero := by
  have hcons := acceptHeader_consistent hs h
  obtain ⟨-, -, hext⟩ := acceptHeader_ok.1 h
  have htarget : s'.currentTarget = s.nextDifficulty.target := by rw [hext]; rfl
  have hadded : s'.chainWork = s.chainWork + s'.currentWork := by rw [hext]; rfl
  rw [retargetsToZero_iff hs hpos, ← htarget]
  constructor
  · intro hadds hzero
    have := hadds.target
    omega
  · intro hne
    have htpos : 1 ≤ s'.currentTarget.toNat := Nat.one_le_iff_ne_zero.2 hne
    exact ⟨htpos, (workFromTarget_pos_iff hcons.le_limit hcons.work).2 htpos, hadded⟩

/-! ## Runs -/

/-- The work of the headers of a run, as a number. -/
def addedWork (hashHeader : Header → BlockHash) : State → List NewHeader → Nat
  | _, [] => 0
  | s, nh :: headers =>
    s.nextDifficulty.work.toNat + addedWork hashHeader (s.extend hashHeader nh) headers

/-- A run adds the works of its headers. -/
theorem chainWork_of_foldlM : ∀ {headers : List NewHeader} {s t : State},
    headers.foldlM (acceptHeader hashHeader) s = .ok t →
    t.chainWork.toNat = (s.chainWork.toNat + addedWork hashHeader s headers) % 2 ^ 256 := by
  intro headers
  induction headers with
  | nil =>
    intro s t h
    rw [foldlM_nil_ok] at h
    rw [← h]
    exact (Nat.mod_eq_of_lt s.chainWork.toNat_lt).symm
  | cons nh headers ih =>
    intro s t h
    obtain ⟨s', hacc, hrest⟩ := foldlM_cons_ok.1 h
    obtain ⟨-, -, hext⟩ := acceptHeader_ok.1 hacc
    have hwork : s'.chainWork = s.chainWork + s.nextDifficulty.work := by rw [hext]; rfl
    rw [ih hrest, hwork, U256.toNat_add, addedWork, ← hext, Nat.mod_add_mod,
      Nat.add_assoc]

/-- The run never takes a retarget to zero. -/
def NoRetargetToZero (hashHeader : Header → BlockHash) (s : State) (headers : List NewHeader)
    (hints : List BlockTimestamp) : Prop :=
  ∀ i a b, i < headers.length → AcceptedPrefix hashHeader s headers hints i a →
    AcceptedPrefix hashHeader s headers hints (i + 1) b → ¬ a.RetargetsToZero

theorem AcceptedPrefix.consistent {s a : State} {headers : List NewHeader}
    {hints : List BlockTimestamp} {i : Nat} (hs : s.Consistent)
    (ha : AcceptedPrefix hashHeader s headers hints i a) : a.Consistent :=
  foldlM_consistent hs ha.foldlM

theorem AcceptedPrefix.zero {s a : State} {headers : List NewHeader} {hints : List BlockTimestamp}
    (ha : AcceptedPrefix hashHeader s headers hints 0 a) : a = s := by
  have hrun := ha.foldlM
  rw [List.take_zero, foldlM_nil_ok] at hrun
  exact hrun.symm

/-- Without such a retarget every target of the run is positive. -/
theorem AcceptedPrefix.target_pos {s : State} (hs : s.Consistent)
    (hpos : 1 ≤ s.currentTarget.toNat) {headers : List NewHeader} {hints : List BlockTimestamp}
    (hgood : NoRetargetToZero hashHeader s headers hints) : ∀ {i : Nat} {a : State},
    AcceptedPrefix hashHeader s headers hints i a → 1 ≤ a.currentTarget.toNat := by
  intro i
  induction i with
  | zero =>
    intro a ha
    rw [ha.zero]
    exact hpos
  | succ i ih =>
    intro b hb
    obtain ⟨a, ha⟩ := hb.pred
    have hacc := ha.acceptHeader hb.1 hb
    exact ((acceptHeader_addsWork (ha.consistent hs) (ih ha) hacc).2
      (hgood i a b hb.1 ha hb)).target

/-- The first header of the run already has positive work. -/
theorem addedWork_pos {s t : State} (hs : s.Consistent) (hpos : 1 ≤ s.currentTarget.toNat)
    {headers : List NewHeader} {hints : List BlockTimestamp}
    (hgood : NoRetargetToZero hashHeader s headers hints) (hne : headers ≠ [])
    (ht : AcceptedPrefix hashHeader s headers hints headers.length t) :
    0 < addedWork hashHeader s headers := by
  have hlen := List.length_pos_iff.2 hne
  obtain ⟨b, hb⟩ := AcceptedPrefix.of_le hlen ht
  obtain ⟨a, ha⟩ := hb.pred
  have hacc := ha.acceptHeader hlen hb
  have hadds := (acceptHeader_addsWork (ha.consistent hs) (ha.target_pos hs hpos hgood) hacc).2
    (hgood 0 a b hlen ha hb)
  obtain ⟨-, -, hext⟩ := acceptHeader_ok.1 hacc
  have hwork : b.currentWork = s.nextDifficulty.work := by rw [hext, ha.zero]; rfl
  cases headers with
  | nil => exact absurd rfl hne
  | cons nh rest =>
    have hfirst := hadds.work
    rw [hwork] at hfirst
    exact Nat.add_pos_left hfirst _

/-- **Every accepted header adds work, unless a retarget leads to zero.**  From a state with a
positive, consistent difficulty, all targets along the accepted headers are positive and every
header adds positive work exactly if no accepted header is a retarget to zero; in that case a run
of at least one header makes the chain work strictly greater, as long as the sum fits. -/
theorem applyHeaders_progress (hashHeader : Header → BlockHash) {s : State} (hs : s.Consistent)
    (hpos : 1 ≤ s.currentTarget.toNat) (headers : List NewHeader)
    (hints : List BlockTimestamp) :
    (((∀ i a, AcceptedPrefix hashHeader s headers hints i a → 1 ≤ a.currentTarget.toNat) ∧
        ∀ i a b, AcceptedPrefix hashHeader s headers hints i a →
          AcceptedPrefix hashHeader s headers hints (i + 1) b → AddsWork a b) ↔
      NoRetargetToZero hashHeader s headers hints) ∧
    (NoRetargetToZero hashHeader s headers hints → ∀ t, headers ≠ [] →
      applyHeaders hashHeader s headers hints = .ok (t, .ok ()) →
      s.chainWork.toNat + addedWork hashHeader s headers < 2 ^ 256 →
      s.chainWork.toNat < t.chainWork.toNat) := by
  constructor
  · constructor
    · rintro ⟨htargets, hadds⟩ i a b hi ha hb
      exact (acceptHeader_addsWork (ha.consistent hs) (htargets i a ha)
        (ha.acceptHeader hi hb)).1 (hadds i a b ha hb)
    · intro hgood
      refine ⟨fun i a ha => ha.target_pos hs hpos hgood, fun i a b ha hb => ?_⟩
      exact (acceptHeader_addsWork (ha.consistent hs) (ha.target_pos hs hpos hgood)
        (ha.acceptHeader hb.1 hb)).2 (hgood i a b hb.1 ha hb)
  · intro hgood t hne ht hfits
    rw [chainWork_of_foldlM (applyHeaders_ok.1 ht).2, Nat.mod_eq_of_lt hfits]
    exact Nat.lt_add_of_pos_right (addedWork_pos hs hpos hgood hne (acceptedPrefix_length ht))

/-! ## The lowest target -/

/-- The target one, with the work that belongs to it. -/
def lowTargetState (height : UInt32) : State :=
  { State.default with
    height := height
    currentNbits := 0x01010000
    currentTarget := ⟨#v[1, 0, 0, 0]⟩
    currentWork := ⟨#v[0, 0, 0, 0x8000000000000000]⟩ }

theorem lowTargetState_consistent (height : UInt32) : (lowTargetState height).Consistent where
  target := show (⟨#v[1, 0, 0, 0]⟩ : Target) = targetFromBits 0x01010000 by decide +kernel
  work := show workFromTarget ⟨#v[1, 0, 0, 0]⟩ = .ok ⟨#v[0, 0, 0, 0x8000000000000000]⟩ by
    decide +kernel
  le_limit := show (⟨#v[1, 0, 0, 0]⟩ : Target) ≤ GENESIS_TARGET by decide +kernel

/-- Inside an epoch a header of target one adds `2^255`. -/
theorem applyHeaders_progress_inside :
    (lowTargetState 1).chainWork.toNat <
      ((lowTargetState 1).extend zeroHash (headerAt 1)).chainWork.toNat := by
  refine (applyHeaders_progress zeroHash (lowTargetState_consistent 1) (by decide) [headerAt 1]
    [0]).2 (fun i a b hi ha hb hret => ?_) _ (by simp) (by decide +kernel) (by decide +kernel)
  obtain rfl : i = 0 := by simpa using hi
  rw [ha.zero] at hret
  exact absurd hret.1 (by decide)

/-- At the end of an epoch that took no time, the next header has target zero and adds nothing. -/
theorem applyHeaders_retargets_to_zero :
    (lowTargetState 2015).Consistent ∧ (lowTargetState 2015).currentTarget.toNat = 1 ∧
      ∃ t, applyHeaders zeroHash (lowTargetState 2015) [headerAt 1] [0] = .ok (t, .ok ()) ∧
        t.currentTarget.toNat = 0 ∧ t.currentWork.toNat = 0 ∧
        t.chainWork = (lowTargetState 2015).chainWork ∧
        (lowTargetState 2015).chainWork.toNat +
          addedWork zeroHash (lowTargetState 2015) [headerAt 1] < 2 ^ 256 := by
  refine ⟨lowTargetState_consistent 2015, by decide,
    (lowTargetState 2015).extend zeroHash (headerAt 1), ?_, ?_, ?_, ?_, ?_⟩ <;> decide +kernel

end Zkpow
