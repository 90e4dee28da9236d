import Zkpow.Apply
import Zkpow.GuestHash
import Zkpow.Input

/-!
# The guest program

`crates/guest/src/main.rs`.  A run reads four byte strings and either panics or commits 169
bytes.  Verification of the prior SP1 proof is a parameter: whether `verify_sp1_proof` returns
for a key and a digest.

* `GuestRun` — a run that commits, with the values it computes on the way;
* `guestMain_ok_iff` — the runs that commit are exactly these;
* `hashHeader_eq`, `continuationDigest_eq` — the guest's hashes are SHA-256.
-/

set_option autoImplicit false

namespace Zkpow

open ByteCodec ExceptFold

/-! ## Hashes -/

section Hashes

variable (sys : Sha256Syscalls)

/-- `hash_header`: SHA256d of a full 80-byte header. -/
def hashHeader (header : Header) : BlockHash :=
  sha256d_80bytes sys ((Codec.array 80).dec header.toBytes)

/-- `compute_continuation_digest`. -/
def computeContinuationDigest (state : State) : Bytes32 :=
  sha256_116bytes sys ((Codec.array 116).dec state.continuationBytes)

/-- `sha256_169bytes` of serialized public values. -/
def publicValuesDigest (pv : MinimalPublicValues) : Bytes32 :=
  sha256_169bytes sys ((Codec.array 169).dec pv.toBytes)

variable {sys}

theorem hashHeader_eq (hsys : sys.Fips) (header : Header) :
    hashHeader sys header = Sha256.hash (Sha256.hash header.toBytes).toList := by
  have hlen : header.toBytes.length = 80 := Header.codec.enc_length header
  rw [hashHeader, sha256d_80bytes_eq hsys, toList_array_dec hlen]

theorem computeContinuationDigest_eq (hsys : sys.Fips) (state : State) :
    computeContinuationDigest sys state = Sha256.hash state.continuationBytes := by
  rw [computeContinuationDigest, sha256_116bytes_eq hsys,
    toList_array_dec (length_continuationBytes state)]

theorem publicValuesDigest_eq (hsys : sys.Fips) (pv : MinimalPublicValues) :
    publicValuesDigest sys pv = Sha256.hash pv.toBytes := by
  rw [publicValuesDigest, sha256_169bytes_eq hsys, toList_array_dec pv.length_toBytes]

end Hashes

/-! ## The program -/

/-- Why a run halts without committing. -/
inductive GuestPanic where
  | input (e : InputError)
  | stateWitness (e : ParseError)
  | claimMismatch
  | headerHints (e : HintError)
  | medianHints (e : HintError)
  | priorExitCode (exitCode : UInt8)
  | publicValuesDigestMismatch
  | sp1Proof
  | apply (p : Panic)
  deriving DecidableEq, Repr

/-- What `read_vec` returns, call by call. -/
structure GuestInput where
  pcs : Bytes
  stateWitness : Bytes
  headerHints : Buffer
  medianHints : Buffer

/-- `verify_sp1_proof`: whether it returns. -/
abbrev Sp1Verifier := VerifierKeyDigest → Bytes32 → Bool

section Program

variable (sys : Sha256Syscalls) (verifySp1Proof : Sp1Verifier)

/-- The public values of the prior run, as `verify_prior_proof` rebuilds them. -/
def priorPublicValues (verifierKey : VerifierKeyDigest) (priorClaim : Claim) (state : State) :
    MinimalPublicValues :=
  .success priorClaim (computeContinuationDigest sys state) verifierKey

def verifyPriorProof (proof : Proof) (verifierKey : VerifierKeyDigest) (priorClaim : Claim)
    (state : State) : Except GuestPanic Unit :=
  if proof.exitCode ≠ 0 then .error (.priorExitCode proof.exitCode)
  else if publicValuesDigest sys (priorPublicValues sys verifierKey priorClaim state) ≠
      proof.publicValuesDigest then .error .publicValuesDigestMismatch
  else if verifySp1Proof verifierKey proof.publicValuesDigest then .ok ()
  else .error .sp1Proof

/-- The block `if pcs.claim.height > 0` of `main`. -/
def checkPriorProof (pcs : ProofCarryingState) (state : State) : Except GuestPanic Unit :=
  if pcs.claim.height > 0 then
    verifyPriorProof sys verifySp1Proof pcs.proof pcs.verifierKey pcs.claim state
  else .ok ()

/-- The public values committed for an outcome of `apply_headers`. -/
def committedPublicValues (verifierKey : VerifierKeyDigest) :
    State × Except ApplyFailure Unit → MinimalPublicValues
  | (state, .ok ()) =>
    .success state.publicClaim (computeContinuationDigest sys state) verifierKey
  | (_, .error failure) =>
    .failure failure.lastValidState.publicClaim failure.errorCode failure.failureHeight
      (computeContinuationDigest sys failure.lastValidState) verifierKey

/-- `main`: the committed bytes. -/
def guestMain (input : GuestInput) : Except GuestPanic Bytes := do
  let pcs ← (ProofCarryingState.parse input.pcs).mapError .input
  let state ← (State.parse input.stateWitness).mapError .stateWitness
  if ¬ (state.genesisHash = pcs.claim.genesisHash ∧ state.blockHash = pcs.claim.tipHash ∧
      state.chainWork = pcs.claim.chainWork ∧ state.height = pcs.claim.height) then
    .error .claimMismatch
  else
    let headerHints ← (parseNewHeaders input.headerHints).mapError .headerHints
    let medianHints ←
      (parseMedianHints input.medianHints headerHints.length).mapError .medianHints
    checkPriorProof sys verifySp1Proof pcs state
    let result ← (applyHeaders (hashHeader sys) state headerHints medianHints).mapError .apply
    return (committedPublicValues sys pcs.verifierKey result).toBytes

end Program

/-! ## Runs that commit -/

/-- The claim check compares the whole claim. -/
theorem publicClaim_eq_iff {state : State} {claim : Claim} :
    (state.genesisHash = claim.genesisHash ∧ state.blockHash = claim.tipHash ∧
      state.chainWork = claim.chainWork ∧ state.height = claim.height) ↔
    state.publicClaim = claim := by
  cases claim
  simp [State.publicClaim]

/-- What `verify_prior_proof` accepts. -/
structure PriorProof (sys : Sha256Syscalls) (verifySp1Proof : Sp1Verifier)
    (pcs : ProofCarryingState) (state : State) : Prop where
  exitCode : pcs.proof.exitCode = 0
  digest : publicValuesDigest sys (priorPublicValues sys pcs.verifierKey pcs.claim state) =
    pcs.proof.publicValuesDigest
  verified : verifySp1Proof pcs.verifierKey pcs.proof.publicValuesDigest = true

theorem checkPriorProof_ok {sys : Sha256Syscalls} {verify : Sp1Verifier}
    {pcs : ProofCarryingState} {state : State} :
    checkPriorProof sys verify pcs state = .ok () ↔
      (0 < pcs.claim.height → PriorProof sys verify pcs state) := by
  unfold checkPriorProof verifyPriorProof
  constructor
  · intro h hheight
    rw [if_pos hheight] at h
    split at h
    · cases h
    split at h
    · cases h
    split at h
    · rename_i hexit hdigest hverified
      exact ⟨not_not.1 hexit, not_not.1 hdigest, hverified⟩
    · cases h
  · intro h
    split
    · rename_i hheight
      obtain ⟨hexit, hdigest, hverified⟩ := h hheight
      rw [if_neg (not_not.2 hexit), if_neg (not_not.2 hdigest), if_pos hverified]
    · rfl

/-- A run that commits, with what it parsed and how `apply_headers` ended. -/
structure GuestRun (sys : Sha256Syscalls) where
  verifySp1Proof : Sp1Verifier
  input : GuestInput
  pcs : ProofCarryingState
  state : State
  headers : List NewHeader
  medianHints : List BlockTimestamp
  result : State × Except ApplyFailure Unit
  pcs_parsed : ProofCarryingState.parse input.pcs = .ok pcs
  state_parsed : State.parse input.stateWitness = .ok state
  claim_eq : state.publicClaim = pcs.claim
  headers_parsed : parseNewHeaders input.headerHints = .ok headers
  hints_parsed : parseMedianHints input.medianHints headers.length = .ok medianHints
  prior : 0 < pcs.claim.height → PriorProof sys verifySp1Proof pcs state
  applied : applyHeaders (hashHeader sys) state headers medianHints = .ok result

/-- The bytes a run commits. -/
def GuestRun.committed {sys : Sha256Syscalls} (run : GuestRun sys) : Bytes :=
  (committedPublicValues sys run.pcs.verifierKey run.result).toBytes

/-- The public values a run rebuilds for the prior run. -/
def GuestRun.priorPublicValues {sys : Sha256Syscalls} (run : GuestRun sys) :
    MinimalPublicValues :=
  Zkpow.priorPublicValues sys run.pcs.verifierKey run.pcs.claim run.state

theorem GuestRun.priorPublicValues_eq {sys : Sha256Syscalls} (run : GuestRun sys) :
    run.priorPublicValues =
      .success run.pcs.claim (computeContinuationDigest sys run.state) run.pcs.verifierKey := rfl

/-- **The runs that commit.**  The guest halts normally exactly on these runs, with these
bytes. -/
theorem guestMain_ok_iff {sys : Sha256Syscalls} {verify : Sp1Verifier} {input : GuestInput}
    {out : Bytes} : guestMain sys verify input = .ok out ↔
      ∃ run : GuestRun sys, run.verifySp1Proof = verify ∧ run.input = input ∧
        run.committed = out := by
  unfold guestMain
  constructor
  · intro h
    obtain ⟨pcs, hpcs, h⟩ := bind_ok.1 h
    obtain ⟨state, hstate, h⟩ := bind_ok.1 h
    split at h
    · cases h
    rename_i hclaim
    obtain ⟨headers, hheaders, h⟩ := bind_ok.1 h
    obtain ⟨hints, hhints, h⟩ := bind_ok.1 h
    obtain ⟨_, hprior, h⟩ := bind_ok.1 h
    obtain ⟨result, happlied, h⟩ := bind_ok.1 h
    refine ⟨⟨verify, input, pcs, state, headers, hints, result, mapError_ok.1 hpcs,
      mapError_ok.1 hstate, publicClaim_eq_iff.1 (not_not.1 hclaim), mapError_ok.1 hheaders,
      mapError_ok.1 hhints, checkPriorProof_ok.1 hprior, mapError_ok.1 happlied⟩, rfl, rfl,
      Except.ok.inj h⟩
  · rintro ⟨run, rfl, rfl, rfl⟩
    have hclaim := publicClaim_eq_iff.2 run.claim_eq
    rw [mapError_ok.2 run.pcs_parsed, mapError_ok.2 run.state_parsed]
    simp only [bind, Except.bind]
    rw [if_neg (not_not.2 hclaim), mapError_ok.2 run.headers_parsed]
    simp only
    rw [mapError_ok.2 run.hints_parsed]
    simp only
    rw [checkPriorProof_ok.2 run.prior, mapError_ok.2 run.applied]
    rfl

/-- A run that returns, returns with a verifier that accepts every proof. -/
theorem guestMain_ok_of_verified {sys : Sha256Syscalls} {verify : Sp1Verifier} {input : GuestInput}
    {out : Bytes} (h : guestMain sys verify input = .ok out) :
    guestMain sys (fun _ _ => true) input = .ok out := by
  obtain ⟨run, -, rfl, rfl⟩ := guestMain_ok_iff.1 h
  exact guestMain_ok_iff.2 ⟨{ run with
    verifySp1Proof := fun _ _ => true
    prior := fun hheight => { run.prior hheight with verified := rfl } }, rfl, rfl, rfl⟩

/-! ## Headers and hints in step -/

/-- A count of headers that fit a payload is small enough for `parse_median_hints`. -/
theorem toNat_length_of_parsed {b : Buffer} {headers : List NewHeader}
    (hfits : b.bytes.length < 2 ^ 64) (h : parseNewHeaders b = .ok headers) :
    (UInt64.ofNat headers.length).toNat = headers.length ∧ headers.length < 2 ^ 62 := by
  rw [(parseNewHeaders_ok.1 h).2, length_serializeNewHeaders] at hfits
  rw [UInt64.toNat_ofNat', Nat.mod_eq_of_lt (by omega)]
  exact ⟨rfl, by omega⟩

/-- The assertion on the lengths at the start of `apply_headers` holds in every run. -/
theorem guestMain_ne_medianHintCount (sys : Sha256Syscalls) (verify : Sp1Verifier)
    (input : GuestInput) : guestMain sys verify input ≠ .error (.apply .medianHintCount) := by
  intro h
  unfold guestMain at h
  rcases bind_error.1 h with h | ⟨pcs, _, h⟩
  · obtain ⟨_, _, he⟩ := mapError_error.1 h
    cases he
  rcases bind_error.1 h with h | ⟨state, _, h⟩
  · obtain ⟨_, _, he⟩ := mapError_error.1 h
    cases he
  split at h
  · cases h
  rcases bind_error.1 h with h | ⟨headers, _, h⟩
  · obtain ⟨_, _, he⟩ := mapError_error.1 h
    cases he
  rcases bind_error.1 h with h | ⟨hints, hhints, h⟩
  · obtain ⟨_, _, he⟩ := mapError_error.1 h
    cases he
  rcases bind_error.1 h with h | ⟨_, _, h⟩
  · unfold checkPriorProof verifyPriorProof at h
    split_ifs at h
    all_goals cases h
  rcases bind_error.1 h with h | ⟨result, _, h⟩
  · -- the second parse was for as many hints as the first returned headers
    obtain ⟨p, happly, hp⟩ := mapError_error.1 h
    have hlen := (parseMedianHints_ok.1 (mapError_ok.1 hhints)).2.1
    obtain ⟨i, hi⟩ := applyHeaders_error hlen.symm happly
    rw [hi] at hp
    cases hp
  · cases h

/-- **The batch codecs are inverse and keep headers and hints in step.**  On aligned payloads
serialized headers are read back and payloads of whole headers are accepted; serialized hints are
accepted for their number and read back; what is accepted re-serializes to the same bytes.  After
the guest's two parses there are as many hints as headers. -/
theorem batch_codecs_exact (sys : Sha256Syscalls) (verify : Sp1Verifier) :
    (∀ (address : Nat) (headers : List NewHeader), address % 4 = 0 →
      parseNewHeaders ⟨address, serializeNewHeaders headers⟩ = .ok headers) ∧
    (∀ b : Buffer, b.Aligned 4 →
      ((∃ headers, parseNewHeaders b = .ok headers) ↔ 44 ∣ b.bytes.length) ∧
      ∀ headers, parseNewHeaders b = .ok headers → serializeNewHeaders headers = b.bytes) ∧
    (∀ (address : Nat) (medians : List BlockTimestamp) (n : UInt64), address % 4 = 0 →
      n.toNat < 2 ^ 62 →
      ((∃ hints, parseMedianHintsUsize ⟨address, serializeMedianHints medians⟩ n = .ok hints) ↔
        n.toNat = medians.length) ∧
      ∀ hints, parseMedianHintsUsize ⟨address, serializeMedianHints medians⟩ n = .ok hints →
        hints = medians) ∧
    (∀ (b : Buffer) (n : UInt64) (hints : List BlockTimestamp), n.toNat < 2 ^ 62 →
      parseMedianHintsUsize b n = .ok hints → serializeMedianHints hints = b.bytes) ∧
    (∀ (b b' : Buffer) (headers : List NewHeader) (hints : List BlockTimestamp),
      b.bytes.length < 2 ^ 64 → parseNewHeaders b = .ok headers →
      parseMedianHintsUsize b' (UInt64.ofNat headers.length) = .ok hints →
      hints.length = headers.length) ∧
    (∀ (b b' : Buffer) (headers : List NewHeader) (hints : List BlockTimestamp),
      parseNewHeaders b = .ok headers → parseMedianHints b' headers.length = .ok hints →
      hints.length = headers.length) ∧
    ∀ input, guestMain sys verify input ≠ .error (.apply .medianHintCount) := by
  refine ⟨?_, ?_, ?_, ?_, ?_, ?_, guestMain_ne_medianHintCount sys verify⟩
  · intro address headers halign
    exact parseNewHeaders_ok.2 ⟨halign, rfl⟩
  · intro b halign
    refine ⟨exists_parseNewHeaders halign, ?_⟩
    intro headers h
    exact (parseNewHeaders_ok.1 h).2.symm
  · intro address medians n halign hn
    rw [parseMedianHintsUsize_eq _ hn]
    simp only [parseMedianHints_serialize halign]
    constructor
    · constructor
      · rintro ⟨_, hcount, _⟩
        exact hcount
      · intro hcount
        exact ⟨medians, hcount, rfl⟩
    · rintro hints ⟨_, hsame⟩
      exact hsame
  · intro b n hints hn h
    rw [parseMedianHintsUsize_eq _ hn, parseMedianHints_ok] at h
    exact h.2.2.symm
  · intro b b' headers hints hfits hheaders h
    obtain ⟨hcount, hlt⟩ := toNat_length_of_parsed hfits hheaders
    rw [parseMedianHintsUsize_eq _ (by rw [hcount]; exact hlt), hcount, parseMedianHints_ok] at h
    exact h.2.1
  · intro b b' headers hints _ h
    exact (parseMedianHints_ok.1 h).2.1

/-- One header and two medians at address 8, and bytes that are no list of headers. -/
theorem batch_codecs_exact_small :
    let headers : List NewHeader := [⟨1, Vector.replicate 32 2, 3, 4⟩]
    parseNewHeaders ⟨8, serializeNewHeaders headers⟩ = .ok headers ∧
      (¬ ∃ parsed, parseNewHeaders ⟨8, List.replicate 45 0⟩ = .ok parsed) ∧
      parseMedianHintsUsize ⟨8, serializeMedianHints [5, 6]⟩ 2 = .ok [5, 6] ∧
      ¬ ∃ hints, parseMedianHintsUsize ⟨8, serializeMedianHints [5, 6]⟩ 1 = .ok hints := by
  intro headers
  obtain ⟨hserialized, haccepted, hmedians, -⟩ :=
    batch_codecs_exact Sha256Syscalls.reference fun _ _ => true
  obtain ⟨hints, htwo⟩ := (hmedians 8 [5, 6] 2 rfl (by decide)).1.2 rfl
  refine ⟨hserialized 8 headers rfl, ?_, ?_, ?_⟩
  · rw [(haccepted ⟨8, List.replicate 45 0⟩ rfl).1]
    decide
  · rw [htwo, (hmedians 8 [5, 6] 2 rfl (by decide)).2 hints htwo]
  · rw [(hmedians 8 [5, 6] 1 rfl (by decide)).1]
    decide

end Zkpow
