import Zkpow.TwoRuns

/-!
# Recursive runs

Runs of the guest that extend one another.  A `History` lists halted runs, latest first; the SP1
verifier of a guest run accepts a key and a digest only when an earlier run of the program with
that key committed bytes with that digest.  Witnesses, proofs and keys are the prover's choice.

* `grounded_of_history` — under one key every run descends from an anchor of height zero, and its
  last valid state is reached from the anchor by the accepted headers of the runs between;
* `recursive_soundness` — what committed public values therefore say.
-/

set_option autoImplicit false

namespace Zkpow

open ByteCodec ExceptFold

/-! ## Accepted headers -/

section Accepted

variable {hashHeader : Header → BlockHash}

/-- The headers accepted from a state, up to the first that is not. -/
def acceptedHeaders (hashHeader : Header → BlockHash) : State → List NewHeader → List NewHeader
  | _, [] => []
  | s, nh :: headers =>
    match acceptHeader hashHeader s nh with
    | .ok s' => nh :: acceptedHeaders hashHeader s' headers
    | .error _ => []

/-- The last valid state of an outcome of `apply_headers`. -/
def lastValid : State × Except ApplyFailure Unit → State
  | (s, .ok ()) => s
  | (_, .error f) => f.lastValidState

/-- The accepted headers lead to the last valid state. -/
theorem foldlM_acceptedHeaders : ∀ (headers : List NewHeader) (s : State),
    (acceptedHeaders hashHeader s headers).foldlM (acceptHeader hashHeader) s =
      .ok (lastValid (outcome (headers.foldlM (acceptHeader hashHeader) s)))
  | [], s => rfl
  | nh :: headers, s => by
    unfold acceptedHeaders
    cases hacc : acceptHeader hashHeader s nh with
    | ok s' =>
      simp only
      rw [foldlM_cons_of_ok hacc, foldlM_cons_of_ok hacc, foldlM_acceptedHeaders headers s']
    | error f =>
      simp only
      rw [foldlM_cons_of_error hacc, outcome, lastValid, (acceptHeader_lastValidState hacc).1]
      rfl

theorem length_acceptedHeaders_le : ∀ (headers : List NewHeader) (s : State),
    (acceptedHeaders hashHeader s headers).length ≤ headers.length
  | [], _ => Nat.le_refl _
  | nh :: headers, s => by
    unfold acceptedHeaders
    split
    · exact Nat.succ_le_succ (length_acceptedHeaders_le headers _)
    · exact Nat.zero_le _

/-- Every list of headers has correct hints. -/
theorem exists_hintsCorrect : ∀ (headers : List NewHeader) (s : State),
    ∃ hints, HintsCorrect hashHeader s headers hints
  | [], s => ⟨[], hintsCorrect_nil s⟩
  | nh :: headers, s => by
    cases hacc : acceptHeader hashHeader s nh with
    | ok s' =>
      obtain ⟨hints, h⟩ := exists_hintsCorrect headers s'
      refine ⟨s.medianTimePast :: hints, hintsCorrect_cons.2 ⟨rfl, h.length_eq, ?_⟩⟩
      intro t ht
      rw [hacc] at ht
      exact Except.ok.inj ht ▸ h
    | error f =>
      refine ⟨s.medianTimePast :: List.replicate headers.length 0,
        hintsCorrect_cons.2 ⟨rfl, (List.length_replicate).symm, ?_⟩⟩
      intro t ht
      rw [hacc] at ht
      cases ht

end Accepted

/-! ## Histories -/

/-- A halted run, of the guest or of another program. -/
inductive HaltedRun (sys : Sha256Syscalls) where
  | guest (run : GuestRun sys)
  | other (key : VerifierKeyDigest) (committed : Bytes)

section Histories

variable {sys : Sha256Syscalls} (K : VerifierKeyDigest)

/-- The key of a run's program; `K` is the guest's. -/
def HaltedRun.key : HaltedRun sys → VerifierKeyDigest
  | .guest _ => K
  | .other key _ => key

def HaltedRun.committed : HaltedRun sys → Bytes
  | .guest run => run.committed
  | .other _ committed => committed

@[simp] theorem HaltedRun.committed_guest (run : GuestRun sys) :
    (HaltedRun.guest run).committed = run.committed := by
  rw [HaltedRun.committed]

/-- Runs in the order they halted, latest first.  SP1 verification is sound: it returns for a key
and a digest only when the digest is that of the bytes an earlier run under the key committed. -/
inductive History : List (HaltedRun sys) → Prop where
  | nil : History []
  | guest {past : List (HaltedRun sys)} (run : GuestRun sys) (hpast : History past)
      (sound : ∀ vk d, run.verifySp1Proof vk d = true →
        ∃ prior ∈ past, prior.key K = vk ∧ Sha256.hash prior.committed = d) :
      History (.guest run :: past)
  | other {past : List (HaltedRun sys)} (key : VerifierKeyDigest) (committed : Bytes)
      (hpast : History past) (hkey : key ≠ K) : History (.other key committed :: past)

variable {K} (history : List (HaltedRun sys))

def GuestRun.lastValid (run : GuestRun sys) : State := Zkpow.lastValid run.result

/-- The continuation bytes the runs of a history hash. -/
inductive HashedContinuation : Bytes → Prop where
  | prior (run : GuestRun sys) (hrun : .guest run ∈ history) (hheight : 0 < run.pcs.claim.height) :
      HashedContinuation run.state.continuationBytes
  | committed (run : GuestRun sys) (hrun : .guest run ∈ history) :
      HashedContinuation run.lastValid.continuationBytes

/-- The public values of 169 bytes that the runs of a history rebuild or commit. -/
inductive HashedPublicValues : Bytes → Prop where
  | prior (run : GuestRun sys) (hrun : .guest run ∈ history) (hheight : 0 < run.pcs.claim.height) :
      HashedPublicValues run.priorPublicValues.toBytes
  | committed (run : HaltedRun sys) (hrun : run ∈ history)
      (hlen : run.committed.length = MINIMAL_PV_SIZE) : HashedPublicValues run.committed

variable {history}

theorem HashedContinuation.mono {b : Bytes} {run : HaltedRun sys}
    (h : HashedContinuation history b) :
    HashedContinuation (run :: history) b := by
  cases h with
  | prior r hr hheight => exact .prior r (List.mem_cons_of_mem _ hr) hheight
  | committed r hr => exact .committed r (List.mem_cons_of_mem _ hr)

theorem HashedPublicValues.mono {b : Bytes} {run : HaltedRun sys}
    (h : HashedPublicValues history b) :
    HashedPublicValues (run :: history) b := by
  cases h with
  | prior r hr hheight => exact .prior r (List.mem_cons_of_mem _ hr) hheight
  | committed r hr hlen => exact .committed r (List.mem_cons_of_mem _ hr) hlen

/-- A run extends the run whose committed bytes it gave the digest of. -/
structure GuestRun.Extends (run : GuestRun sys) (prior : HaltedRun sys) : Prop where
  height_pos : 0 < run.pcs.claim.height
  digest : Sha256.hash prior.committed = run.pcs.proof.publicValuesDigest

def GuestRun.accepted (run : GuestRun sys) : List NewHeader :=
  acceptedHeaders (hashHeader sys) run.state run.headers

/-- A run descends from an anchor: the first run has the anchor as its witness, every later one
extends the one before.  The headers are those the runs accepted, in order. -/
inductive Grounded (history : List (HaltedRun sys)) (anchor : State) :
    List NewHeader → GuestRun sys → Prop where
  | first (run : GuestRun sys) (hrun : .guest run ∈ history) (hstate : run.state = anchor)
      (hheight : anchor.height = 0) : Grounded history anchor run.accepted run
  | next {headers : List NewHeader} {prior : GuestRun sys} (run : GuestRun sys)
      (hprior : Grounded history anchor headers prior) (hrun : .guest run ∈ history)
      (hextends : run.Extends (.guest prior)) :
      Grounded history anchor (headers ++ run.accepted) run

theorem Grounded.mono {anchor : State} {headers : List NewHeader} {run : GuestRun sys}
    {latest : HaltedRun sys} (h : Grounded history anchor headers run) :
    Grounded (latest :: history) anchor headers run := by
  induction h with
  | first run hrun hstate hheight => exact .first run (List.mem_cons_of_mem _ hrun) hstate hheight
  | next run _ hrun hextends ih => exact .next run ih (List.mem_cons_of_mem _ hrun) hextends

/-! ## One link -/

/-- The bytes a run commits, by its last valid state. -/
theorem committed_cases (run : GuestRun sys) :
    run.committed = (MinimalPublicValues.success run.lastValid.publicClaim
      (computeContinuationDigest sys run.lastValid) run.pcs.verifierKey).toBytes ∨
    ∃ e h, run.committed = (MinimalPublicValues.failure run.lastValid.publicClaim e h
      (computeContinuationDigest sys run.lastValid) run.pcs.verifierKey).toBytes := by
  unfold GuestRun.committed GuestRun.lastValid
  rcases run.result with ⟨s, f | u⟩
  · exact .inr ⟨f.errorCode, f.failureHeight, rfl⟩
  · exact .inl rfl

/-- The committed fields, read off the last valid state. -/
theorem committed_fields (run : GuestRun sys) {pv : MinimalPublicValues}
    (h : run.committed = pv.toBytes) :
    run.lastValid.publicClaim =
        ⟨pv.genesisHash, pv.tipHash, U256.fromLeBytes pv.chainWork, pv.height⟩ ∧
      pv.continuationDigest = computeContinuationDigest sys run.lastValid ∧
      pv.verifierKey = run.pcs.verifierKey := by
  rcases committed_cases run with hc | ⟨e, f, hc⟩
  · obtain rfl := MinimalPublicValues.toBytes_inj (h.symm.trans hc)
    refine ⟨?_, rfl, rfl⟩
    rw [MinimalPublicValues.success, U256.fromLeBytes_toLeBytes]
  · obtain rfl := MinimalPublicValues.toBytes_inj (h.symm.trans hc)
    refine ⟨?_, rfl, rfl⟩
    rw [MinimalPublicValues.failure, U256.fromLeBytes_toLeBytes]

theorem length_committed (run : GuestRun sys) : run.committed.length = MINIMAL_PV_SIZE :=
  MinimalPublicValues.length_toBytes _

/-- The run that is extended committed exactly the rebuilt public values. -/
theorem committed_eq_prior (hsys : sys.Fips) {run : GuestRun sys} {prior : HaltedRun sys}
    (hpv : Set.InjOn Sha256.hash {b | HashedPublicValues history b}) (hrun : .guest run ∈ history)
    (hprior : prior ∈ history) (hlen : prior.committed.length = MINIMAL_PV_SIZE)
    (hextends : run.Extends prior) : prior.committed = run.priorPublicValues.toBytes := by
  have hdigest : publicValuesDigest sys run.priorPublicValues =
      run.pcs.proof.publicValuesDigest := (run.prior hextends.height_pos).digest
  rw [publicValuesDigest_eq hsys, ← hextends.digest] at hdigest
  exact (hpv (.prior run hrun hextends.height_pos) (.committed prior hprior hlen) hdigest).symm

/-- **One link.**  A run takes up the last valid state of the guest run it extends, up to the
unauthenticated header, and under the same key. -/
theorem extends_sameButHeader (hsys : sys.Fips) {run prior : GuestRun sys}
    (hcont : Set.InjOn Sha256.hash {b | HashedContinuation history b})
    (hpv : Set.InjOn Sha256.hash {b | HashedPublicValues history b}) (hrun : .guest run ∈ history)
    (hprior : .guest prior ∈ history) (hextends : run.Extends (.guest prior)) :
    SameButHeader prior.lastValid run.state ∧
      prior.pcs.verifierKey = run.pcs.verifierKey := by
  have hbytes := committed_eq_prior hsys hpv hrun hprior
    (by rw [HaltedRun.committed_guest, length_committed]) hextends
  rw [HaltedRun.committed_guest, GuestRun.priorPublicValues_eq] at hbytes
  rcases committed_cases prior with h | ⟨e, f, h⟩
  · rw [h] at hbytes
    obtain ⟨hclaim, hdigest, hvk⟩ := MinimalPublicValues.success_inj hbytes
    rw [computeContinuationDigest_eq hsys, computeContinuationDigest_eq hsys] at hdigest
    have hcd : prior.lastValid.continuationBytes = run.state.continuationBytes :=
      hcont (.committed prior hprior) (.prior run hrun hextends.height_pos) hdigest
    exact ⟨.of_continuation (hclaim.trans run.claim_eq.symm) (continuationBytes_inj hcd), hvk⟩
  · rw [h] at hbytes
    exact absurd hbytes.symm MinimalPublicValues.success_toBytes_ne_failure_toBytes

end Histories

/-! ## Whole histories -/

section Runs

variable {sys : Sha256Syscalls} {K : VerifierKeyDigest} {history : List (HaltedRun sys)}

/-- Continuing from a state the run cannot tell from its own. -/
theorem foldlM_accepted_agree (run : GuestRun sys) {s : State}
    (hs : SameButHeader s run.state) :
    ∃ final, run.accepted.foldlM (acceptHeader (hashHeader sys)) s = .ok final ∧
      SameButHeader final run.lastValid := by
  have hagree := foldlM_agree (hashHeader sys) hs run.accepted
  have hrun : run.accepted.foldlM (acceptHeader (hashHeader sys)) run.state =
      .ok run.lastValid := by
    rw [GuestRun.accepted, foldlM_acceptedHeaders, ← run.result_eq]
    rfl
  rw [hrun] at hagree
  cases hs' : run.accepted.foldlM (acceptHeader (hashHeader sys)) s with
  | ok final =>
    rw [hs'] at hagree
    cases hagree with
    | ok h => exact ⟨final, rfl, h⟩
  | error f => rw [hs'] at hagree; cases hagree

/-- What the descent from an anchor says about the last valid state of a run. -/
structure GroundedAt (history : List (HaltedRun sys)) (run : GuestRun sys) (anchor : State)
    (headers : List NewHeader) (final : State) : Prop where
  grounded : Grounded history anchor headers run
  height : anchor.height = 0
  applied : headers.foldlM (acceptHeader (hashHeader sys)) anchor = .ok final
  agrees : SameButHeader final run.lastValid
  genesisHash : final.genesisHash = anchor.genesisHash

theorem History.key_ne (h : History K history) {key : VerifierKeyDigest} {committed : Bytes}
    (hmem : .other key committed ∈ history) : key ≠ K := by
  induction h with
  | nil => cases hmem
  | guest run _ _ ih => exact ih ((List.mem_cons.1 hmem).resolve_left (by simp))
  | other key' committed' _ hkey ih =>
    rcases List.mem_cons.1 hmem with heq | hmem'
    · rw [(HaltedRun.other.inj heq).1]
      exact hkey
    · exact ih hmem'

/-- **Every run under the guest's key descends from an anchor**: the last valid state of the run
is reached from the anchor by the accepted headers of the runs on the way. -/
theorem grounded_of_history (hsys : sys.Fips) (hhistory : History K history)
    (hcont : Set.InjOn Sha256.hash {b | HashedContinuation history b})
    (hpv : Set.InjOn Sha256.hash {b | HashedPublicValues history b}) (run : GuestRun sys)
    (hrun : .guest run ∈ history) (hkey : run.pcs.verifierKey = K) :
    ∃ anchor headers final, GroundedAt history run anchor headers final := by
  induction hhistory generalizing run with
  | nil => cases hrun
  | other key committed _ _ ih =>
    have hrun' := (List.mem_cons.1 hrun).resolve_left (by simp)
    obtain ⟨anchor, headers, final, h⟩ := ih (hcont.mono fun b => HashedContinuation.mono)
      (hpv.mono fun b => HashedPublicValues.mono) run hrun' hkey
    exact ⟨anchor, headers, final, { h with grounded := h.grounded.mono }⟩
  | @guest past latest hpast sound ih =>
    have ih' := ih (hcont.mono fun b => HashedContinuation.mono)
      (hpv.mono fun b => HashedPublicValues.mono)
    rcases List.mem_cons.1 hrun with hlatest | hrun'
    · obtain rfl : run = latest := HaltedRun.guest.inj hlatest
      by_cases hheight : 0 < run.pcs.claim.height
      -- the prior run under the same key is one of the guest, and grounded
      · obtain ⟨prior, hmem, hpriorKey, hdigest⟩ := sound _ _ (run.prior hheight).verified
        cases prior with
        | other key committed => exact absurd (hpriorKey.trans hkey) (hpast.key_ne hmem)
        | guest prior =>
          have hextends : run.Extends (.guest prior) := ⟨hheight, hdigest⟩
          obtain ⟨hagree, hvk⟩ := extends_sameButHeader hsys hcont hpv hrun
            (List.mem_cons_of_mem _ hmem) hextends
          obtain ⟨anchor, headers, mid, h⟩ := ih' prior hmem (hvk.trans hkey)
          obtain ⟨final, hfinal, hfinalAgree⟩ := foldlM_accepted_agree run (h.agrees.trans hagree)
          refine ⟨anchor, headers ++ run.accepted, final, .next run h.grounded.mono hrun hextends,
            h.height, ?_, hfinalAgree, ?_⟩
          · rw [foldlM_append_ok h.applied, hfinal]
          · rw [genesisHash_foldlM hfinal, h.genesisHash]
      -- a run from height zero is its own anchor
      · have hzero : run.state.height = 0 := by
          rw [← run.claim_eq] at hheight
          exact not_not.1 fun hne => hheight (UInt32.pos_iff_ne_zero.2 hne)
        obtain ⟨final, hfinal, hagree⟩ :=
          foldlM_accepted_agree run (.refl run.state)
        exact ⟨run.state, run.accepted, final, .first run hrun rfl hzero, hzero, hfinal, hagree,
          genesisHash_foldlM hfinal⟩
    · obtain ⟨anchor, headers, final, h⟩ := ih' run hrun' hkey
      exact ⟨anchor, headers, final, { h with grounded := h.grounded.mono }⟩

/-- **Recursive soundness.**  In every history, public values committed under the guest's key, of
a success or a failure, describe a state reached from some anchor of height zero, the witness of
the first run, by the headers the runs in between accepted; and what a run extends are always
public values with return code zero, whatever exit code its proof claims. -/
theorem recursive_soundness (hsys : sys.Fips) (hhistory : History K history)
    (hcont : Set.InjOn Sha256.hash {b | HashedContinuation history b})
    (hpv : Set.InjOn Sha256.hash {b | HashedPublicValues history b}) :
    (∀ (run : GuestRun sys) (pv : MinimalPublicValues), .guest run ∈ history →
      run.committed = pv.toBytes → pv.verifierKey = K →
      ∃ (anchor : State) (headers : List NewHeader) (hints : List BlockTimestamp) (final : State),
        Grounded history anchor headers run ∧ anchor.height = 0 ∧
        applyHeaders (hashHeader sys) anchor headers hints = .ok (final, .ok ()) ∧
        final.publicClaim =
          ⟨pv.genesisHash, pv.tipHash, U256.fromLeBytes pv.chainWork, pv.height⟩ ∧
        Sha256.hash final.continuationBytes = pv.continuationDigest ∧
        pv.genesisHash = anchor.genesisHash) ∧
    (∀ (run : GuestRun sys) (prior : HaltedRun sys) (pv : MinimalPublicValues),
      .guest run ∈ history → prior ∈ history → run.Extends prior →
      prior.committed = pv.toBytes → pv.returnCode = 0) := by
  refine ⟨fun run pv hrun hcommitted hkey => ?_, fun run prior pv hrun hprior hextends hbytes => ?_⟩
  · obtain ⟨hclaim, hdigest, hvk⟩ := committed_fields run hcommitted
    obtain ⟨anchor, headers, final, h⟩ :=
      grounded_of_history hsys hhistory hcont hpv run hrun (hvk.symm.trans hkey)
    obtain ⟨hints, hhints⟩ : ∃ hints, HintsCorrect (hashHeader sys) anchor headers hints :=
      exists_hintsCorrect headers anchor
    have happly := applyHeaders_ok.2 ⟨hhints, h.applied⟩
    refine ⟨anchor, headers, hints, final, h.grounded, h.height, happly, ?_, ?_, ?_⟩
    · rw [h.agrees.publicClaim, hclaim]
    · rw [hdigest, computeContinuationDigest_eq hsys, State.continuationBytes,
        State.continuationBytes, h.agrees.continuation]
    · rw [← h.genesisHash, h.agrees.genesisHash]
      exact (congrArg Claim.genesisHash hclaim).symm
  · have hlen : prior.committed.length = MINIMAL_PV_SIZE := by
      rw [hbytes, MinimalPublicValues.length_toBytes]
      rfl
    have hpvbytes := committed_eq_prior hsys hpv hrun hprior hlen hextends
    rw [hbytes] at hpvbytes
    rw [MinimalPublicValues.toBytes_inj hpvbytes]
    rfl

end Runs

/-! ## Two runs in a row -/

section Example

/-- The run that accepts one header on the anchor; no proof verifies for it. -/
def exampleFirst : GuestRun .reference :=
  .onInputs .reference (fun _ _ => false) easyAnchor exampleKey .default [headerAt 1] [0]
    (easyTip, .ok ()) (fun h => absurd h (by decide)) applyHeaders_easyAnchor

/-- The run that extends it. -/
def exampleSecond : GuestRun .reference := .idle .reference easyTip exampleKey #v[0, 0, 0]

def examplePublicValues : MinimalPublicValues :=
  .success easyTip.publicClaim (computeContinuationDigest .reference easyTip) exampleKey

theorem exampleFirst_committed : exampleFirst.committed = examplePublicValues.toBytes := rfl

theorem exampleSecond_committed : exampleSecond.committed = examplePublicValues.toBytes := rfl

theorem exampleSecond_prior : exampleSecond.priorPublicValues = examplePublicValues := rfl

def exampleHistory : List (HaltedRun .reference) := [.guest exampleSecond, .guest exampleFirst]

theorem exampleHistory_history : History exampleKey exampleHistory := by
  refine .guest exampleSecond (.guest exampleFirst .nil ?_) ?_
  · intro vk d h
    cases h
  · intro vk d h
    obtain ⟨hvk, hd⟩ := idle_verify easyTip exampleKey _ h
    refine ⟨.guest exampleFirst, List.mem_singleton_self _, hvk.symm, ?_⟩
    rw [← exampleSecond, exampleSecond_prior,
      publicValuesDigest_eq Sha256Syscalls.reference_fips] at hd
    rw [hd, HaltedRun.committed_guest, exampleFirst_committed]

theorem mem_exampleHistory {run : HaltedRun .reference} (h : run ∈ exampleHistory) :
    run = .guest exampleSecond ∨ run = .guest exampleFirst := by
  rcases List.mem_cons.1 h with h | h
  · exact .inl h
  · exact .inr (List.mem_singleton.1 h)

theorem exampleHistory_continuation {b : Bytes} (h : HashedContinuation exampleHistory b) :
    b = easyTip.continuationBytes := by
  cases h with
  | prior run hrun hheight =>
    rcases mem_exampleHistory hrun with h | h
    · rw [HaltedRun.guest.inj h]; rfl
    · rw [HaltedRun.guest.inj h] at hheight
      exact absurd hheight (by decide)
  | committed run hrun =>
    rcases mem_exampleHistory hrun with h | h
    · rw [HaltedRun.guest.inj h]; rfl
    · rw [HaltedRun.guest.inj h]; rfl

theorem exampleHistory_publicValues {b : Bytes} (h : HashedPublicValues exampleHistory b) :
    b = examplePublicValues.toBytes := by
  cases h with
  | prior run hrun hheight =>
    rcases mem_exampleHistory hrun with h | h
    · rw [HaltedRun.guest.inj h, exampleSecond_prior]
    · rw [HaltedRun.guest.inj h] at hheight
      exact absurd hheight (by decide)
  | committed run hrun _ =>
    rcases mem_exampleHistory hrun with rfl | rfl
    · exact exampleSecond_committed
    · exact exampleFirst_committed

theorem exampleHistory_injOn :
    Set.InjOn Sha256.hash {b | HashedContinuation exampleHistory b} ∧
      Set.InjOn Sha256.hash {b | HashedPublicValues exampleHistory b} :=
  ⟨fun _ ha _ hb _ => (exampleHistory_continuation ha).trans (exampleHistory_continuation hb).symm,
    fun _ ha _ hb _ => (exampleHistory_publicValues ha).trans (exampleHistory_publicValues hb).symm⟩

/-- A run that accepts a header, and one that extends it. -/
theorem recursive_soundness_example :
    ∃ (anchor : State) (headers : List NewHeader) (hints : List BlockTimestamp) (final : State),
      Grounded exampleHistory anchor headers exampleSecond ∧ anchor.height = 0 ∧
      applyHeaders (hashHeader .reference) anchor headers hints = .ok (final, .ok ()) ∧
      final.height = 1 := by
  have hinj : ∀ {S : Bytes → Prop} {x : Bytes}, (∀ b, S b → b = x) →
      Set.InjOn Sha256.hash {b | S b} := fun h a ha b hb _ => (h a ha).trans (h b hb).symm
  obtain ⟨anchor, headers, hints, final, hground, hheight, happly, hclaim, _⟩ :=
    (recursive_soundness Sha256Syscalls.reference_fips exampleHistory_history
      (hinj fun b => exampleHistory_continuation) (hinj fun b => exampleHistory_publicValues)).1
      exampleSecond examplePublicValues (List.mem_cons_self ..) exampleSecond_committed rfl
  exact ⟨anchor, headers, hints, final, hground, hheight, happly, congrArg Claim.height hclaim⟩

end Example

end Zkpow
