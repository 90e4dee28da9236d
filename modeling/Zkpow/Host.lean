import Zkpow.Database
import Zkpow.Recursion

/-!
# The host's side of a run

What the host computes for a batch (`crates/host/src/util/{hash,simulate}.rs`,
`pipeline/input.rs`): it hashes with library code, replays the headers, and writes the four byte
strings the guest reads.  The library hashes are parameters (`HashLibrary`), and so are the key
and proof types of the SP1 SDK.

* `buildProof_success` — the proof record of a successful prior run carries exit code 0 and the
  digest of its public values;
* `guestMain_delivered` — on serialized inputs the guest does what `apply_headers` does;
* `guestMain_eq_simulation` — the guest commits what the host's replay predicts.
-/

set_option autoImplicit false

namespace Zkpow.Host

open ByteCodec ExceptFold

/-! ## Hashing -/

/-- The hash functions of the host's libraries. -/
structure HashLibrary where
  /-- `sha2::Sha256::digest`. -/
  sha256 : Bytes → Bytes32
  /-- `SP1PublicValues::hash`, 32 bytes as `compute_pv_digest` expects. -/
  publicValuesHash : Bytes → Bytes32

/-- Both are SHA-256. -/
structure HashLibrary.Fips (lib : HashLibrary) : Prop where
  sha256 : ∀ data, lib.sha256 data = Sha256.hash data
  publicValuesHash : ∀ data, lib.publicValuesHash data = Sha256.hash data

/-- A library that implements the standard. -/
def HashLibrary.reference : HashLibrary := ⟨Sha256.hash, Sha256.hash⟩

theorem HashLibrary.reference_fips : HashLibrary.reference.Fips := ⟨fun _ => rfl, fun _ => rfl⟩

section Hashes

variable (lib : HashLibrary)

/-- Compute SHA256d of the given data. -/
def sha256d (data : Bytes) : Bytes32 := lib.sha256 (lib.sha256 data).toList

/-- Hash a full Bitcoin header with SHA256d. -/
def hashHeader (header : Header) : BlockHash := sha256d lib header.toBytes

/-- Compute SHA-256 digest of public values. -/
def computePvDigest (committedBytes : Bytes) : Bytes32 := lib.publicValuesHash committedBytes

/-- SHA-256 of the serialized continuation data. -/
def continuationDigest (data : ContinuationData) : Bytes32 := lib.sha256 data.toBytes

def continuationDigestFromState (state : State) : Bytes32 :=
  continuationDigest lib (ContinuationData.fromState state)

variable {lib}

/-- Host and guest hash headers alike. -/
theorem hashHeader_eq_guest {sys : Sha256Syscalls} (hsys : sys.Fips) (hlib : lib.Fips) :
    hashHeader lib = Zkpow.hashHeader sys := by
  funext header
  rw [Zkpow.hashHeader_eq hsys, hashHeader, sha256d, hlib.sha256, hlib.sha256]

theorem continuationDigestFromState_eq (hlib : lib.Fips) (state : State) :
    continuationDigestFromState lib state = Sha256.hash state.continuationBytes :=
  hlib.sha256 _

/-- Host and guest hash continuation data alike. -/
theorem continuationDigest_eq_guest {sys : Sha256Syscalls} (hsys : sys.Fips) (hlib : lib.Fips)
    (state : State) :
    continuationDigestFromState lib state = computeContinuationDigest sys state := by
  rw [continuationDigestFromState_eq hlib, computeContinuationDigest_eq hsys]

/-- The digest of the public values the guest rebuilds for a prior run. -/
theorem publicValuesDigest_prior {sys : Sha256Syscalls} (hsys : sys.Fips)
    (vk : VerifierKeyDigest) (claim : Claim) (state : State) :
    publicValuesDigest sys (priorPublicValues sys vk claim state) =
      Sha256.hash (MinimalPublicValues.success claim (Sha256.hash state.continuationBytes)
        vk).toBytes := by
  rw [publicValuesDigest_eq hsys, priorPublicValues, computeContinuationDigest_eq hsys]

end Hashes

/-! ## Panics and errors -/

/-- Why the host panics. -/
inductive HostPanic where
  | db (p : DbPanic)
  | apply (p : Panic)
  /-- `"host state transition should succeed"`. -/
  | transition (failure : ApplyFailure)
  /-- `"host state transition should succeed at header index {index}"`. -/
  | replay (index : Nat) (failure : ApplyFailure)
  | indexOutOfBounds
  /-- `"find_first_diverging_state requires at least one header"`. -/
  | noHeaders
  /-- `"median hint count must match header count"`. -/
  | medianHintCount
  /-- `"mock backend should prepare a mock prover"`. -/
  | notMockProver
  /-- `"CUDA config should already be rejected when the CUDA feature is absent"`. -/
  | cudaNotCompiled
  deriving DecidableEq, Repr

/-- `Display` of a validation error. -/
def ValidationErrorCode.display : ValidationErrorCode → String
  | .headerPayloadLengthInvalid => "Header payload length invalid"
  | .powInsufficient => "PoW insufficient"
  | .timestampTooOld => "Timestamp too old"
  | .genesisHashMismatch => "Genesis hash mismatch"

/-- `Display` of a public-values parse error. -/
def PublicValuesParseError.display : PublicValuesParseError → String
  | .invalidLength actual =>
    s!"invalid public values length: expected {MINIMAL_PV_SIZE}, got {actual}"
  | .unknownErrorCode code => s!"unknown validation error code: {code}"

/-- `hex::encode`. -/
def hexEncode (bytes : Bytes) : String :=
  String.ofList (bytes.flatMap fun b => [(b.toNat / 16).digitChar, (b.toNat % 16).digitChar])

/-- `BoxError`. -/
inductive BoxError where
  | noHeadersRemaining (firstNewHeight : UInt32)
  | trustedStartWithPreviousProof
  | publicValues (e : PublicValuesParseError)
  | previousProofFailed (failure : ProofFailure)
  | previousProofGenesisMismatch
  | dbStateMismatch (claim dbClaim : Claim)
  | simulationDiverges (badIndex : Nat) (badHeight : UInt32) (actual expected : Claim)
  | previousProofMalformed (e : PublicValuesParseError)
  | previousProofNotCompressed
  | publicValuesMismatch (label : String) (expected actual : Bytes)
  | endedInError (label : String) (failure : ProofFailure)
  | executionFailed (failure : ProofFailure)
  | executionMalformed (e : PublicValuesParseError)
  /-- Any other text: the environment, the file system, the SDK. -/
  | other (text : String)
  deriving DecidableEq, Repr

def NO_HEADERS_REMAINING_PREFIX : String := "no headers remaining in database"

/-- The texts of the errors, up to the rendered claims that end two of them. -/
def BoxError.display : BoxError → String
  | .noHeadersRemaining h => NO_HEADERS_REMAINING_PREFIX ++ s!": starting at height {h}"
  | .trustedStartWithPreviousProof =>
    "trusted start height cannot be combined with a previous proof"
  | .publicValues e => PublicValuesParseError.display e
  | .previousProofFailed f => "previous proof ended in error: " ++
      ValidationErrorCode.display f.errorCode ++ s!" at height {f.failureHeight}"
  | .previousProofGenesisMismatch => "previous proof genesis mismatch"
  | .dbStateMismatch claim _ => s!"db state mismatch at height {claim.height}:\n"
  | .simulationDiverges i h _ _ => "host simulation diverges from database\n" ++
      s!"  first bad header index in batch: {i}\n  bad height: {h}\n"
  | .previousProofMalformed e =>
    "failed to parse previous proof public values: " ++ PublicValuesParseError.display e
  | .previousProofNotCompressed => "previous proof is not compressed"
  | .publicValuesMismatch label expected actual => label ++ " public values mismatch: expected " ++
      hexEncode expected ++ ", got " ++ hexEncode actual
  | .endedInError label f => label ++ " ended in error " ++
      ValidationErrorCode.display f.errorCode ++ s!" at height {f.failureHeight}"
  | .executionFailed f => "execution failed with " ++
      ValidationErrorCode.display f.errorCode ++ s!" at height {f.failureHeight}"
  | .executionMalformed e =>
    "execution produced malformed public values: " ++ PublicValuesParseError.display e
  | .other text => text

/-- How a host function ends when it does not return. -/
inductive HostStop where
  | error (e : BoxError)
  | panic (p : HostPanic)
  deriving DecidableEq, Repr

/-! ## Simulation -/

/-- Simulate the zkVM program locally using the supplied median-time-past hints. -/
def computeFinalStateWithHints (lib : HashLibrary) (initialState : State)
    (headers : List NewHeader) (hints : List BlockTimestamp) : Except HostPanic State := do
  match ← (applyHeaders (hashHeader lib) initialState headers hints).mapError .apply with
  | (state, .ok ()) => return state
  | (_, .error failure) => .error (.transition failure)

def recordsToNewHeaders (records : List HeaderRecord) : List NewHeader :=
  records.map fun record => NewHeader.fromHeader record.header

/-- Build the median-time-past witness hints from database header records. -/
def medianTimePastHintsFromRecords (records : List HeaderRecord) : List BlockTimestamp :=
  records.map fun record => record.medianTimePast

theorem computeFinalStateWithHints_ok {lib : HashLibrary} {s e : State}
    {headers : List NewHeader} {hints : List BlockTimestamp} :
    computeFinalStateWithHints lib s headers hints = .ok e ↔
      applyHeaders (hashHeader lib) s headers hints = .ok (e, .ok ()) := by
  unfold computeFinalStateWithHints
  constructor
  · intro h
    obtain ⟨⟨state, result⟩, happly, h⟩ := bind_ok.1 h
    rw [mapError_ok] at happly
    cases result with
    | ok _ => rw [happly, ← Except.ok.inj h]
    | error failure => cases h
  · intro h
    rw [h]
    rfl

/-! ## Program input -/

section Input

variable {Inner Vk : Type}

/-- `SP1Proof`; the kinds other than compressed are not told apart. -/
inductive Sp1Proof (Inner : Type) where
  | compressed (proof : Inner)
  | other

structure ProofWithPublicValues (Inner : Type) where
  proof : Sp1Proof Inner
  publicValues : Bytes

/-- `SP1Stdin`: the buffers written, and the proofs to be verified. -/
structure Stdin (Inner Vk : Type) where
  buffers : List Bytes
  proofs : List (Inner × Vk)

def Stdin.writeVec (stdin : Stdin Inner Vk) (bytes : Bytes) : Stdin Inner Vk :=
  { stdin with buffers := stdin.buffers ++ [bytes] }

def Stdin.writeProof (stdin : Stdin Inner Vk) (proof : Inner) (vk : Vk) : Stdin Inner Vk :=
  { stdin with proofs := stdin.proofs ++ [(proof, vk)] }

/-- The exit code `build_proof` reads off committed public values. -/
def exitCodeOf (publicValues : Bytes) : Except BoxError UInt8 :=
  match HeaderChainPublicValues.parse publicValues with
  | .ok (.success ..) => .ok 0
  | .ok (.failure failure ..) => .ok failure.errorCode.asByte
  | .error e => .error (.previousProofMalformed e)

def buildProof (lib : HashLibrary) (hashU32 : Vk → VerifierKeyDigest) (vk : Vk)
    (previousProof : Option (ProofWithPublicValues Inner)) :
    Except BoxError (VerifierKeyDigest × Proof) :=
  match previousProof with
  | some prev => do
    let exitCode ← exitCodeOf prev.publicValues
    return (hashU32 vk, { Proof.default with
      publicValuesDigest := computePvDigest lib prev.publicValues
      exitCode := exitCode })
  | none => .ok (hashU32 vk, .default)

def buildStdin (pcs : ProofCarryingState) (state : State) (headers : List NewHeader)
    (medianHints : List BlockTimestamp)
    (previousProof : Option (ProofWithPublicValues Inner × Vk)) :
    Except BoxError (Stdin Inner Vk) :=
  let stdin : Stdin Inner Vk := ⟨[], []⟩
  let stdin := stdin.writeVec pcs.toBytes
  let stdin := stdin.writeVec state.toBytes
  let stdin := stdin.writeVec (serializeNewHeaders headers)
  let stdin := stdin.writeVec (serializeMedianHints medianHints)
  match previousProof with
  | some (prevProof, vk) =>
    match prevProof.proof with
    | .compressed innerProof => .ok (stdin.writeProof innerProof vk)
    | .other => .error .previousProofNotCompressed
  | none => .ok stdin

/-- The proof record made of a successful prior run. -/
theorem buildProof_success (lib : HashLibrary) (hashU32 : Vk → VerifierKeyDigest) (vk : Vk)
    {prev : ProofWithPublicValues Inner} {c : Claim} {d : Bytes32} {k : VerifierKeyDigest}
    (h : prev.publicValues = (MinimalPublicValues.success c d k).toBytes) :
    buildProof lib hashU32 vk (some prev) =
      .ok (hashU32 vk, { Proof.default with
        publicValuesDigest := lib.publicValuesHash prev.publicValues }) := by
  have hexit : exitCodeOf prev.publicValues = .ok 0 := by
    rw [exitCodeOf, h, HeaderChainPublicValues.parse_success]
  rw [buildProof, hexit]
  rfl

/-- Whatever the prior proof, the same four buffers are written. -/
theorem buildStdin_buffers {pcs : ProofCarryingState} {state : State} {headers : List NewHeader}
    {medianHints : List BlockTimestamp} {previousProof : Option (ProofWithPublicValues Inner × Vk)}
    {stdin : Stdin Inner Vk}
    (h : buildStdin pcs state headers medianHints previousProof = .ok stdin) :
    stdin.buffers = [pcs.toBytes, state.toBytes, serializeNewHeaders headers,
      serializeMedianHints medianHints] := by
  unfold buildStdin at h
  split at h
  · split at h
    · rw [← Except.ok.inj h]
      rfl
    · cases h
  · rw [← Except.ok.inj h]
    rfl

/-- A compressed prior proof is attached. -/
theorem buildStdin_compressed (pcs : ProofCarryingState) (state : State)
    (headers : List NewHeader) (medianHints : List BlockTimestamp) (inner : Inner)
    (publicValues : Bytes) (vk : Vk) :
    ∃ stdin, buildStdin pcs state headers medianHints
        (some (⟨.compressed inner, publicValues⟩, vk)) = .ok stdin ∧
      (inner, vk) ∈ stdin.proofs :=
  ⟨_, rfl, List.mem_singleton_self _⟩

/-- The guest reads the buffers in order, the two payloads at aligned addresses. -/
structure Stdin.Delivers (stdin : Stdin Inner Vk) (input : GuestInput) : Prop where
  buffers : stdin.buffers =
    [input.pcs, input.stateWitness, input.headerHints.bytes, input.medianHints.bytes]
  headerHints : input.headerHints.Aligned 4
  medianHints : input.medianHints.Aligned 4

end Input

/-! ## Agreement with the guest -/

section Agreement

variable {Inner Vk : Type} {sys : Sha256Syscalls} {lib : HashLibrary} {verify : Sp1Verifier}
  {pcs : ProofCarryingState} {state : State} {headers : List NewHeader}
  {hints : List BlockTimestamp} {previousProof : Option (ProofWithPublicValues Inner × Vk)}
  {stdin : Stdin Inner Vk} {input : GuestInput}

/-- What the guest parses from the buffers the host wrote. -/
structure Reads (input : GuestInput) (pcs : ProofCarryingState) (state : State)
    (headers : List NewHeader) (hints : List BlockTimestamp) : Prop where
  pcs : ProofCarryingState.parse input.pcs = .ok pcs
  state : State.parse input.stateWitness = .ok state
  newHeaders : parseNewHeaders input.headerHints = .ok headers
  medianHints : headers.length = hints.length →
    parseMedianHints input.medianHints headers.length = .ok hints

theorem reads_of_buffers (hstdin : stdin.buffers = [pcs.toBytes, state.toBytes,
      serializeNewHeaders headers, serializeMedianHints hints])
    (hinput : stdin.Delivers input) : Reads input pcs state headers hints := by
  have hbuffers := hinput.buffers.symm.trans hstdin
  simp only [List.cons.injEq, and_true] at hbuffers
  obtain ⟨hpcs, hstate, hheaders, hhints⟩ := hbuffers
  refine ⟨?_, ?_, parseNewHeaders_ok.2 ⟨hinput.headerHints, hheaders⟩, fun hlen => ?_⟩
  · rw [hpcs, ProofCarryingState.parse_toBytes]
  · rw [hstate]
    exact copyFromBytes_ok.2 rfl
  · exact parseMedianHints_ok.2 ⟨hinput.medianHints, hlen.symm, hhints⟩

/-- On serialized inputs the guest checks the prior proof and then does what `apply_headers`
does. -/
theorem guestMain_delivered (hread : Reads input pcs state headers hints)
    (hlen : headers.length = hints.length) (hclaim : pcs.claim = state.publicClaim) :
    guestMain sys verify input = (checkPriorProof sys verify pcs state).bind fun _ =>
      ((applyHeaders (Zkpow.hashHeader sys) state headers hints).mapError GuestPanic.apply).map
        fun result => (committedPublicValues sys pcs.verifierKey result).toBytes := by
  unfold guestMain
  rw [mapError_ok.2 hread.pcs, mapError_ok.2 hread.state]
  simp only [bind, Except.bind]
  rw [if_neg (not_not.2 (publicClaim_eq_iff.2 hclaim.symm)), mapError_ok.2 hread.newHeaders]
  simp only
  rw [mapError_ok.2 (hread.medianHints hlen)]
  simp only
  cases checkPriorProof sys verify pcs state with
  | error e => rfl
  | ok _ => cases applyHeaders (Zkpow.hashHeader sys) state headers hints <;> rfl

/-- What the guest checks before SP1 verification: the witness matches the claim, and the proof
record is that of a successful run that ended in the witness. -/
structure PriorChecks (pcs : ProofCarryingState) (state : State) : Prop where
  claim : state.publicClaim = pcs.claim
  exitCode : pcs.proof.exitCode = 0
  digest : pcs.proof.publicValuesDigest = Sha256.hash (MinimalPublicValues.success pcs.claim
    (Sha256.hash state.continuationBytes) pcs.verifierKey).toBytes

theorem PriorChecks.checkPriorProof (hsys : sys.Fips)
    (h : 0 < pcs.claim.height → PriorChecks pcs state)
    (hverify : 0 < pcs.claim.height →
      verify pcs.verifierKey pcs.proof.publicValuesDigest = true) :
    checkPriorProof sys verify pcs state = .ok () := by
  refine checkPriorProof_ok.2 fun hheight => ⟨(h hheight).exitCode, ?_, hverify hheight⟩
  rw [publicValuesDigest_prior hsys, (h hheight).digest]

/-- What the guest does on the inputs the host writes for a state and an accepted proof record. -/
theorem guestMain_checked (hsys : sys.Fips) (hlib : lib.Fips)
    (hlen : headers.length = hints.length) (hclaim : pcs.claim = state.publicClaim)
    (hproof : 0 < state.height → PriorChecks pcs state)
    (hverify : 0 < state.height → verify pcs.verifierKey pcs.proof.publicValuesDigest = true)
    (hread : Reads input pcs state headers hints) :
    guestMain sys verify input =
      ((applyHeaders (hashHeader lib) state headers hints).mapError GuestPanic.apply).map
        fun result => (committedPublicValues sys pcs.verifierKey result).toBytes := by
  have hheight : state.height = pcs.claim.height := congrArg Claim.height hclaim.symm
  rw [hheight] at hproof hverify
  rw [guestMain_delivered hread hlen hclaim, PriorChecks.checkPriorProof hsys hproof hverify,
    hashHeader_eq_guest hsys hlib]
  rfl

theorem committedPublicValues_success (hsys : sys.Fips) (hlib : lib.Fips)
    (vk : VerifierKeyDigest) (e : State) :
    committedPublicValues sys vk (e, .ok ()) =
      .success e.publicClaim (continuationDigestFromState lib e) vk := by
  rw [continuationDigest_eq_guest hsys hlib]
  rfl

theorem committedPublicValues_failure (hsys : sys.Fips) (hlib : lib.Fips)
    (vk : VerifierKeyDigest) (s : State) (f : ApplyFailure) :
    committedPublicValues sys vk (s, .error f) = .failure f.lastValidState.publicClaim f.errorCode
      f.failureHeight (continuationDigestFromState lib f.lastValidState) vk := by
  rw [continuationDigest_eq_guest hsys hlib]
  rfl

/-- A proof record with another exit code is refused before anything else about it is looked at. -/
theorem guestMain_exitCode (hlen : headers.length = hints.length)
    (hclaim : pcs.claim = state.publicClaim) (hread : Reads input pcs state headers hints)
    (hheight : 0 < state.height) (hexit : pcs.proof.exitCode ≠ 0) :
    guestMain sys verify input = .error (.priorExitCode pcs.proof.exitCode) := by
  have hprior : checkPriorProof sys verify pcs state =
      .error (.priorExitCode pcs.proof.exitCode) := by
    unfold checkPriorProof verifyPriorProof
    rw [if_pos (show pcs.claim.height > 0 by rw [hclaim]; exact hheight), if_pos hexit]
  rw [guestMain_delivered hread hlen hclaim, hprior]
  rfl

/-- **The guest commits what the host predicts.**  On the inputs the host writes for a state and a
proof record of a successful run that ended in it, the guest commits the success values of the
state the host's replay reaches, commits the failure values of the replay's failure, and panics
where the replay panics.  A proof record with another exit code it refuses, whatever the digest and
whatever the replay says. -/
theorem guestMain_eq_simulation (hsys : sys.Fips) (hlib : lib.Fips)
    (hlen : headers.length = hints.length) (hclaim : pcs.claim = state.publicClaim)
    (hstdin : buildStdin pcs state headers hints previousProof = .ok stdin)
    (hinput : stdin.Delivers input) :
    ((0 < state.height → PriorChecks pcs state) →
      (0 < state.height → verify pcs.verifierKey pcs.proof.publicValuesDigest = true) →
      (∀ e, computeFinalStateWithHints lib state headers hints = .ok e →
        guestMain sys verify input = .ok (MinimalPublicValues.success e.publicClaim
          (continuationDigestFromState lib e) pcs.verifierKey).toBytes) ∧
      (∀ s f, applyHeaders (hashHeader lib) state headers hints = .ok (s, .error f) →
        guestMain sys verify input = .ok (MinimalPublicValues.failure
          f.lastValidState.publicClaim f.errorCode f.failureHeight
          (continuationDigestFromState lib f.lastValidState) pcs.verifierKey).toBytes) ∧
      (∀ p, applyHeaders (hashHeader lib) state headers hints = .error p →
        guestMain sys verify input = .error (.apply p))) ∧
    (0 < state.height → pcs.proof.exitCode ≠ 0 →
      guestMain sys verify input = .error (.priorExitCode pcs.proof.exitCode)) := by
  have hread := reads_of_buffers (buildStdin_buffers hstdin) hinput
  refine ⟨fun hproof hverify => ?_, guestMain_exitCode hlen hclaim hread⟩
  have hrun : guestMain sys verify input = _ :=
    guestMain_checked hsys hlib hlen hclaim hproof hverify hread
  refine ⟨fun e he => ?_, fun s f hf => ?_, fun p hp => ?_⟩
  · rw [hrun, computeFinalStateWithHints_ok.1 he, ← committedPublicValues_success hsys hlib]
    rfl
  · rw [hrun, hf, ← committedPublicValues_failure hsys hlib _ s]
    rfl
  · rw [hrun, hp]
    rfl

end Agreement

/-! ## A resumed state and one new header -/

section Example

def easyTipValues : MinimalPublicValues :=
  .success easyTip.publicClaim (continuationDigestFromState .reference easyTip) exampleKey

/-- The proof record of `easyTipValues`, with an exit code. -/
def easyTipPcs (exitCode : UInt8) : ProofCarryingState :=
  ⟨easyTip.publicClaim, exampleKey, { Proof.default with
    publicValuesDigest := computePvDigest .reference easyTipValues.toBytes
    exitCode := exitCode }⟩

/-- The four vectors for one header and its hint. -/
def easyTipStdin (exitCode : UInt8) (header : NewHeader) : Stdin Unit Unit :=
  ⟨[(easyTipPcs exitCode).toBytes, easyTip.toBytes, serializeNewHeaders [header],
    serializeMedianHints [1]], []⟩

def easyTipInput (exitCode : UInt8) (header : NewHeader) : GuestInput :=
  ⟨(easyTipPcs exitCode).toBytes, easyTip.toBytes, ⟨0, serializeNewHeaders [header]⟩,
    ⟨0, serializeMedianHints [1]⟩⟩

theorem easyTipStdin_delivers (exitCode : UInt8) (header : NewHeader) :
    (easyTipStdin exitCode header).Delivers (easyTipInput exitCode header) := ⟨rfl, rfl, rfl⟩

theorem buildStdin_easyTip (exitCode : UInt8) (header : NewHeader) :
    buildStdin (easyTipPcs exitCode) easyTip [header] [1] none =
      .ok (easyTipStdin exitCode header) := rfl

/-- The host's replay accepts a header later than the median, and refuses one that is not. -/
theorem easyTip_replay :
    computeFinalStateWithHints .reference easyTip [headerAt 2] [1] =
        .ok (easyTip.extend (hashHeader .reference) (headerAt 2)) ∧
      applyHeaders (hashHeader .reference) easyTip [headerAt 1] [1] =
        .ok (easyTip, .error ⟨easyTip, .timestampTooOld, 2⟩) := by
  have hmedian : easyTip.medianTimePast = 1 := by decide +kernel
  constructor
  · exact computeFinalStateWithHints_ok.2 (applyHeaders_singleton hmedian.symm
      (acceptHeader_maxTarget rfl (by decide) (by rw [hmedian]; decide)))
  · have hrefused : acceptHeader (hashHeader .reference) easyTip (headerAt 1) =
        .error ⟨easyTip, .timestampTooOld, 2⟩ :=
      acceptHeader_error.2 (.inl ⟨by rw [hmedian]; decide, rfl⟩)
    exact applyHeaders_err.2
      ⟨hintsCorrect_cons.2 ⟨hmedian.symm, rfl, fun t _ => hintsCorrect_nil t⟩, rfl,
        foldlM_cons_of_error hrefused []⟩

theorem easyTipPcs_claim (exitCode : UInt8) :
    (easyTipPcs exitCode).claim = easyTip.publicClaim := rfl

theorem easyTipPcs_digest (exitCode : UInt8) :
    (easyTipPcs exitCode).proof.publicValuesDigest =
      computePvDigest .reference easyTipValues.toBytes := rfl

theorem easyTipPcs_checks : PriorChecks (easyTipPcs 0) easyTip where
  claim := rfl
  exitCode := rfl
  digest := by
    rw [easyTipPcs_digest, computePvDigest, HashLibrary.reference_fips.publicValuesHash,
      easyTipValues, continuationDigestFromState_eq HashLibrary.reference_fips,
      easyTipPcs_claim]
    rfl

/-- With exit code zero the guest commits what the host predicts, for a header that is accepted
and for one that is not; with another exit code it panics. -/
theorem guestMain_eq_simulation_easyTip :
    let verify : Sp1Verifier := fun _ _ => true
    let final := easyTip.extend (hashHeader .reference) (headerAt 2)
    guestMain .reference verify (easyTipInput 0 (headerAt 2)) =
        .ok (MinimalPublicValues.success final.publicClaim
          (continuationDigestFromState .reference final) (easyTipPcs 0).verifierKey).toBytes ∧
      guestMain .reference verify (easyTipInput 0 (headerAt 1)) =
        .ok (MinimalPublicValues.failure easyTip.publicClaim .timestampTooOld 2
          (continuationDigestFromState .reference easyTip) (easyTipPcs 0).verifierKey).toBytes ∧
      guestMain .reference verify (easyTipInput 3 (headerAt 2)) = .error (.priorExitCode 3) := by
  intro verify final
  have hsuccess := ((guestMain_eq_simulation Sha256Syscalls.reference_fips
    HashLibrary.reference_fips rfl (easyTipPcs_claim 0) (buildStdin_easyTip 0 (headerAt 2))
    (easyTipStdin_delivers 0 (headerAt 2))).1 (fun _ => easyTipPcs_checks)
    (fun _ => show verify _ _ = true from rfl)).1 final easyTip_replay.1
  have hfailure := ((guestMain_eq_simulation Sha256Syscalls.reference_fips
    HashLibrary.reference_fips rfl (easyTipPcs_claim 0) (buildStdin_easyTip 0 (headerAt 1))
    (easyTipStdin_delivers 0 (headerAt 1))).1 (fun _ => easyTipPcs_checks)
    (fun _ => show verify _ _ = true from rfl)).2.1 easyTip ⟨easyTip, .timestampTooOld, 2⟩
    easyTip_replay.2
  have hexit : guestMain .reference verify (easyTipInput 3 (headerAt 2)) = _ :=
    (guestMain_eq_simulation Sha256Syscalls.reference_fips HashLibrary.reference_fips rfl
      (easyTipPcs_claim 3) (buildStdin_easyTip 3 (headerAt 2))
      (easyTipStdin_delivers 3 (headerAt 2))).2 (by decide) (by decide)
  exact ⟨hsuccess, hfailure, hexit⟩

/-- A matching digest with another exit code makes the guest panic. -/
theorem guestMain_easyTip_exitCode :
    (easyTipPcs 1).claim = easyTip.publicClaim ∧
      (easyTipPcs 1).proof.publicValuesDigest =
        computePvDigest .reference easyTipValues.toBytes ∧
      computeFinalStateWithHints .reference easyTip [headerAt 2] [1] =
        .ok (easyTip.extend (hashHeader .reference) (headerAt 2)) ∧
      buildStdin (easyTipPcs 1) easyTip [headerAt 2] [1] none =
        .ok (easyTipStdin 1 (headerAt 2)) ∧
      (easyTipStdin 1 (headerAt 2)).Delivers (easyTipInput 1 (headerAt 2)) ∧
      guestMain .reference (fun _ _ => true) (easyTipInput 1 (headerAt 2)) =
        .error (.priorExitCode 1) :=
  ⟨easyTipPcs_claim 1, easyTipPcs_digest 1, easyTip_replay.1, buildStdin_easyTip 1 _,
    easyTipStdin_delivers 1 _, guestMain_exitCode rfl (easyTipPcs_claim 1)
      (reads_of_buffers (buildStdin_buffers (buildStdin_easyTip 1 _)) (easyTipStdin_delivers 1 _))
      (by decide) (by decide)⟩

end Example

end Zkpow.Host
