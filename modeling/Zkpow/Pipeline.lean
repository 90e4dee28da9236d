import Zkpow.Config

/-!
# One batch

Preparing a batch from the database and executing the guest on it
(`crates/host/src/pipeline/{batch,execution}.rs`, `pipeline/proof/compressed.rs`).  The SP1 client
is a parameter (`Prover`).

* `prepareBatch_ok` — where the state a batch starts from comes from, and what its fields are;
* `proverInput_accepted`, `unprovenInput_accepted` — when the inputs that are serialized pass the
  guest's checks;
* `RunsGuest.expected` — accepted inputs execute to the public values the host expects.
-/

set_option autoImplicit false

namespace Zkpow.Host

open ByteCodec ExceptFold

variable {Inner Vk : Type}

/-! ## Finding a divergence -/

section Divergence

variable (lib : HashLibrary) (headers : List NewHeader) (medianHints : List BlockTimestamp)

/-- The replayed prefix: the current state, and the states after each header. -/
structure Replay where
  replayState : State
  replayedStates : List State

/-- One turn of `replay_states_through`. -/
def replayStep (r : Replay) : Except HostPanic Replay :=
  let index := r.replayedStates.length
  match headers[index]?, medianHints[index]? with
  | some newHeader, some hint =>
    match applyHeaders (hashHeader lib) r.replayState [newHeader] [hint] with
    | .ok (state, .ok ()) => .ok ⟨state, r.replayedStates ++ [state]⟩
    | .ok (_, .error failure) => .error (.replay index failure)
    | .error p => .error (.apply p)
  | _, _ => .error .indexOutOfBounds

/-- `replay_states_through`: each turn pushes one state, until there is one for the index. -/
def replayStatesThrough (targetIndex : Nat) (r : Replay) : Except HostPanic Replay :=
  (List.range' r.replayedStates.length (targetIndex + 1 - r.replayedStates.length)).foldlM
    (fun r _ => replayStep lib headers medianHints r) r

/-- The replayed state at an index. -/
def Replay.at (r : Replay) (index : Nat) : Except HostPanic State :=
  match r.replayedStates[index]? with
  | some state => .ok state
  | none => .error .indexOutOfBounds

variable (firstNewHeight : UInt32) (db : Table) (genesisHash : BlockHash)

/-- The loop of `find_first_diverging_state`. -/
def bisectDivergence (r : Replay) (lo hi : Nat) : Except HostPanic (Nat × Replay) :=
  if lo < hi then do
    let mid := lo + (hi - lo) / 2
    let r ← replayStatesThrough lib headers medianHints mid r
    let height := firstNewHeight + UInt32.ofNat mid
    let dbClaim ← (loadPublicClaim db height.toNat genesisHash).mapError .db
    let state ← r.at mid
    if state.publicClaim = dbClaim then bisectDivergence r (mid + 1) hi
    else bisectDivergence r lo mid
  else .ok (lo, r)
  termination_by hi - lo

def findFirstDivergingState (currentState : State) : Except HostPanic (Nat × State) :=
  if headers.isEmpty then .error .noHeaders
  else if headers.length ≠ medianHints.length then .error .medianHintCount
  else do
    let (lo, r) ← bisectDivergence lib headers medianHints firstNewHeight db genesisHash
      ⟨currentState, []⟩ 0 (headers.length - 1)
    let r ← replayStatesThrough lib headers medianHints lo r
    let state ← r.at lo
    return (lo, state)

end Divergence

/-! ## Preparing a batch -/

structure PreparedBatch (Inner : Type) where
  previousProof : Option (ProofWithPublicValues Inner)
  currentState : State
  headers : List NewHeader
  medianHints : List BlockTimestamp
  expectedState : State
  expectedContinuationDigest : Bytes32
  firstNewHeight : UInt32
  endHeight : UInt32

/-- `SP1ProofWithPublicValues::load`. -/
abbrev LoadProof (Inner : Type) := PathBuf → Except String (ProofWithPublicValues Inner)

section Prepare

variable (lib : HashLibrary) (load : LoadProof Inner) (db : Table) (genesisHash : BlockHash)

def loadOptionalProof : Option PathBuf → Except HostStop (Option (ProofWithPublicValues Inner))
  | none => .ok none
  | some path => ((load path).mapError fun text => .error (.other text)).map some

/-- A panic of the database layer stops the host. -/
def dbStop (p : DbPanic) : HostStop := .panic (.db p)

/-- The claim a previous proof may be continued from. -/
def previousClaim (prevProof : ProofWithPublicValues Inner) : Except BoxError Claim :=
  match HeaderChainPublicValues.parse prevProof.publicValues with
  | .ok (.success claim ..) => .ok claim
  | .ok (.failure failure ..) => .error (.previousProofFailed failure)
  | .error e => .error (.publicValues e)

/-- `resolve_current_state` with a previous proof. -/
def resumeFromProof (prevProof : ProofWithPublicValues Inner) : Except HostStop State := do
  let claim ← (previousClaim prevProof).mapError .error
  if claim.genesisHash ≠ genesisHash then .error (.error .previousProofGenesisMismatch)
  else
    let state ← (stateFromDbAtHeight (hashHeader lib) db claim.height genesisHash).mapError dbStop
    if state.publicClaim ≠ claim then
      .error (.error (.dbStateMismatch claim state.publicClaim))
    else return state

def resolveCurrentState (trustedStartHeight : Option UInt32)
    (previousProof : Option (ProofWithPublicValues Inner)) : Except HostStop State :=
  match previousProof, trustedStartHeight with
  | some _, some _ => .error (.error .trustedStartWithPreviousProof)
  | some prevProof, none => resumeFromProof lib db genesisHash prevProof
  | none, some height =>
    (stateFromDbAtHeight (hashHeader lib) db height genesisHash).mapError dbStop
  | none, none => (stateFromDbAtHeight (hashHeader lib) db 0 genesisHash).mapError dbStop

def simulateExpectedState (currentState : State) (headers : List NewHeader)
    (medianHints : List BlockTimestamp) (firstNewHeight endHeight : UInt32) :
    Except HostStop State := do
  let expectedState ←
    (computeFinalStateWithHints lib currentState headers medianHints).mapError .panic
  let dbEndClaim ← (loadPublicClaim db endHeight.toNat genesisHash).mapError dbStop
  if expectedState.publicClaim = dbEndClaim then return expectedState
  else
    let (badIndex, actualState) ← (findFirstDivergingState lib headers medianHints firstNewHeight
      db genesisHash currentState).mapError .panic
    let badHeight := firstNewHeight + UInt32.ofNat badIndex
    let expectedClaim ← (loadPublicClaim db badHeight.toNat genesisHash).mapError dbStop
    .error (.error (.simulationDiverges badIndex badHeight actualState.publicClaim expectedClaim))

def prepareBatch (prevProofPath : Option PathBuf) (trustedStartHeight : Option UInt32)
    (numHeaders : UInt32) : Except HostStop (PreparedBatch Inner) := do
  let previousProof ← loadOptionalProof load prevProofPath
  let currentState ← resolveCurrentState lib db genesisHash trustedStartHeight previousProof
  let firstNewHeight := currentState.height + 1
  let witness ←
    (loadHeaderBatchWitness db firstNewHeight.toNat numHeaders.toNat).mapError dbStop
  if witness.headers.isEmpty then .error (.error (.noHeadersRemaining firstNewHeight))
  else
    let loadedCount := UInt32.ofNat witness.headers.length
    let endHeight := currentState.height + loadedCount
    let expectedState ← simulateExpectedState lib db genesisHash currentState witness.headers
      witness.medianTimePastHints firstNewHeight endHeight
    return {
      previousProof := previousProof
      currentState := currentState
      headers := witness.headers
      medianHints := witness.medianTimePastHints
      expectedState := expectedState
      expectedContinuationDigest := continuationDigestFromState lib expectedState
      firstNewHeight := firstNewHeight
      endHeight := endHeight }

variable {lib load db genesisHash} {prevProofPath : Option PathBuf}
  {trustedStartHeight : Option UInt32} {numHeaders : UInt32} {batch : PreparedBatch Inner}

theorem loadOptionalProof_isSome {previousProof : Option (ProofWithPublicValues Inner)}
    (h : loadOptionalProof load prevProofPath = .ok previousProof) :
    previousProof.isSome = prevProofPath.isSome := by
  unfold loadOptionalProof at h
  split at h
  · rw [← Except.ok.inj h]
    rfl
  · rename_i path
    cases hload : (load path).mapError fun text => HostStop.error (.other text) with
    | error e =>
      rw [hload] at h
      cases h
    | ok proof =>
      rw [hload] at h
      rw [← Except.ok.inj h]
      rfl

/-- Without a resume point a batch starts at genesis. -/
theorem resolveCurrentState_height {s : State}
    (h : resolveCurrentState lib db genesisHash none
      (none : Option (ProofWithPublicValues Inner)) = .ok s) : s.height = 0 :=
  stateFromDbAtHeight_height (mapError_ok.1 h)

/-- What the fields of a prepared batch are. -/
structure PreparedBatch.Spec (lib : HashLibrary) (load : LoadProof Inner) (db : Table)
    (genesisHash : BlockHash) (prevProofPath : Option PathBuf)
    (trustedStartHeight : Option UInt32) (numHeaders : UInt32) (batch : PreparedBatch Inner) :
    Prop where
  previousProof : loadOptionalProof load prevProofPath = .ok batch.previousProof
  currentState : resolveCurrentState lib db genesisHash trustedStartHeight batch.previousProof =
    .ok batch.currentState
  witness : loadHeaderBatchWitness db batch.firstNewHeight.toNat numHeaders.toNat =
    .ok ⟨batch.headers, batch.medianHints⟩
  headers : batch.headers ≠ []
  replay : computeFinalStateWithHints lib batch.currentState batch.headers batch.medianHints =
    .ok batch.expectedState
  endClaim : loadPublicClaim db batch.endHeight.toNat genesisHash =
    .ok batch.expectedState.publicClaim
  digest : batch.expectedContinuationDigest = continuationDigestFromState lib batch.expectedState
  firstNewHeight : batch.firstNewHeight = batch.currentState.height + 1
  endHeight : batch.endHeight = batch.currentState.height + UInt32.ofNat batch.headers.length

/-- A simulation that is returned is the replay, and ends at the claim of the database. -/
theorem simulateExpectedState_ok {s e : State} {headers : List NewHeader}
    {hints : List BlockTimestamp} {first last : UInt32} :
    simulateExpectedState lib db genesisHash s headers hints first last = .ok e ↔
      computeFinalStateWithHints lib s headers hints = .ok e ∧
        loadPublicClaim db last.toNat genesisHash = .ok e.publicClaim := by
  unfold simulateExpectedState
  constructor
  · intro h
    obtain ⟨replayed, hreplayed, h⟩ := bind_ok.1 h
    obtain ⟨claim, hclaim, h⟩ := bind_ok.1 h
    split at h
    · rename_i heq
      rw [← Except.ok.inj h]
      exact ⟨mapError_ok.1 hreplayed, heq ▸ mapError_ok.1 hclaim⟩
    · obtain ⟨_, -, h⟩ := bind_ok.1 h
      obtain ⟨_, -, h⟩ := bind_ok.1 h
      cases h
  · rintro ⟨hreplay, hclaim⟩
    refine bind_ok.2 ⟨e, mapError_ok.2 hreplay, bind_ok.2 ⟨_, mapError_ok.2 hclaim, ?_⟩⟩
    rw [if_pos rfl]
    rfl

/-- **What a prepared batch holds.** -/
theorem prepareBatch_ok :
    prepareBatch lib load db genesisHash prevProofPath trustedStartHeight numHeaders =
        .ok batch ↔
      batch.Spec lib load db genesisHash prevProofPath trustedStartHeight numHeaders := by
  unfold prepareBatch
  constructor
  · intro h
    obtain ⟨previousProof, hprevious, h⟩ := bind_ok.1 h
    obtain ⟨currentState, hcurrent, h⟩ := bind_ok.1 h
    obtain ⟨witness, hwitness, h⟩ := bind_ok.1 h
    split at h
    · cases h
    rename_i hheaders
    obtain ⟨expectedState, hexpected, h⟩ := bind_ok.1 h
    obtain ⟨hreplay, hclaim⟩ := simulateExpectedState_ok.1 hexpected
    rw [← Except.ok.inj h]
    exact ⟨hprevious, hcurrent, mapError_ok.1 hwitness, by simpa using hheaders, hreplay, hclaim,
      rfl, rfl, rfl⟩
  · intro h
    have hwitness := h.witness
    have hsimulated : simulateExpectedState lib db genesisHash batch.currentState batch.headers
        batch.medianHints batch.firstNewHeight batch.endHeight = .ok batch.expectedState :=
      simulateExpectedState_ok.2 ⟨h.replay, h.endClaim⟩
    rw [h.firstNewHeight] at hwitness hsimulated
    rw [h.endHeight] at hsimulated
    refine bind_ok.2 ⟨_, h.previousProof, bind_ok.2 ⟨_, h.currentState, bind_ok.2 ⟨_,
      mapError_ok.2 hwitness, ?_⟩⟩⟩
    rw [if_neg (by simpa using h.headers)]
    refine bind_ok.2 ⟨_, hsimulated, ?_⟩
    rw [← h.digest, ← h.firstNewHeight, ← h.endHeight]
    rfl

/-- A batch without headers is refused with the error that ends a session. -/
theorem prepareBatch_noHeaders {previousProof : Option (ProofWithPublicValues Inner)}
    {currentState : State} {witness : HeaderBatchWitness}
    (hprevious : loadOptionalProof load prevProofPath = .ok previousProof)
    (hcurrent : resolveCurrentState lib db genesisHash trustedStartHeight previousProof =
      .ok currentState)
    (hwitness : loadHeaderBatchWitness db (currentState.height + 1).toNat numHeaders.toNat =
      .ok witness) (hempty : witness.headers = []) :
    prepareBatch lib load db genesisHash prevProofPath trustedStartHeight numHeaders =
      .error (.error (.noHeadersRemaining (currentState.height + 1))) := by
  unfold prepareBatch
  rw [hprevious]
  simp only [bind, Except.bind]
  rw [hcurrent]
  simp only
  rw [hwitness]
  simp only [Except.mapError]
  rw [if_pos (by rw [hempty]; rfl)]

/-- A batch above genesis was resumed, from a proof or from a trusted height. -/
theorem PreparedBatch.Spec.resumed
    (h : batch.Spec lib load db genesisHash prevProofPath trustedStartHeight numHeaders)
    (hheight : 0 < batch.currentState.height) :
    prevProofPath.isSome = true ∨ trustedStartHeight.isSome = true := by
  cases hpath : prevProofPath with
  | some _ => exact .inl rfl
  | none =>
    cases htrusted : trustedStartHeight with
    | some _ => exact .inr rfl
    | none =>
      have hprevious : batch.previousProof = none := by
        rw [← Option.not_isSome_iff_eq_none, loadOptionalProof_isSome h.previousProof, hpath]
        decide
      have hcurrent := h.currentState
      rw [hprevious, htrusted] at hcurrent
      rw [resolveCurrentState_height hcurrent] at hheight
      exact absurd hheight (by decide)

end Prepare

/-! ## Executing a batch -/

/-- What is handed to the executor, and the public values expected of it. -/
structure ExecutionInput (Inner Vk : Type) where
  pcs : ProofCarryingState
  stdin : Stdin Inner Vk
  expectedPv : Bytes

def verifyPublicValues (pv expectedPv : Bytes) (label : String) : Except BoxError Unit :=
  match HeaderChainPublicValues.parse pv with
  | .ok (.success ..) =>
    if pv ≠ expectedPv then .error (.publicValuesMismatch label expectedPv pv) else .ok ()
  | .ok (.failure failure ..) => .error (.endedInError label failure)
  | .error e => .error (.publicValues e)

/-- An SP1 client with the proving key of the guest. -/
structure Prover (Inner Vk : Type) where
  verifyingKey : Vk
  execute : Stdin Inner Vk → Except String Bytes
  proveCompressed : Stdin Inner Vk → Except String (ProofWithPublicValues Inner)
  verify : ProofWithPublicValues Inner → Except String Unit

section Execute

variable (lib : HashLibrary) (hashU32 : Vk → VerifierKeyDigest)

/-- `execute_batch_with_prover` up to the execution. -/
def proverInput (verifyingKey : Vk) (batch : PreparedBatch Inner) :
    Except BoxError (ExecutionInput Inner Vk) := do
  let expectedPv := (MinimalPublicValues.success batch.expectedState.publicClaim
    batch.expectedContinuationDigest (hashU32 verifyingKey)).toBytes
  let (verifierKey, proof) ← buildProof lib hashU32 verifyingKey batch.previousProof
  let pcs : ProofCarryingState := ⟨batch.currentState.publicClaim, verifierKey, proof⟩
  let stdin ← buildStdin pcs batch.currentState batch.headers batch.medianHints
    (batch.previousProof.map fun p => (p, verifyingKey))
  return ⟨pcs, stdin, expectedPv⟩

/-- `execute_batch_with_prover` from the execution on. -/
def executeInput (prover : Prover Inner Vk) (input : ExecutionInput Inner Vk) :
    Except BoxError Unit := do
  let publicValues ← (prover.execute input.stdin).mapError .other
  match HeaderChainPublicValues.parse publicValues with
  | .ok (.success ..) => verifyPublicValues publicValues input.expectedPv "execution"
  | .ok (.failure failure ..) => .error (.executionFailed failure)
  | .error e => .error (.executionMalformed e)

def executeBatchWithProver (prover : Prover Inner Vk) (batch : PreparedBatch Inner) :
    Except BoxError (ExecutionInput Inner Vk) := do
  let input ← proverInput lib hashU32 prover.verifyingKey batch
  executeInput prover input
  return input

/-- `VerifierKeyDigest::default`. -/
def defaultVerifierKey : VerifierKeyDigest := Vector.replicate 8 0

/-- `execute_batch_without_proof` up to the execution. -/
def unprovenInput (batch : PreparedBatch Inner) : Except BoxError (ExecutionInput Inner Vk) := do
  let verifierKey := defaultVerifierKey
  let expectedPv := (MinimalPublicValues.success batch.expectedState.publicClaim
    batch.expectedContinuationDigest verifierKey).toBytes
  let continuationDigest := continuationDigestFromState lib batch.currentState
  let priorPublicValues :=
    MinimalPublicValues.success batch.currentState.publicClaim continuationDigest verifierKey
  let proof : Proof := { Proof.default with
    publicValuesDigest := computePvDigest lib priorPublicValues.toBytes }
  let pcs : ProofCarryingState := ⟨batch.currentState.publicClaim, verifierKey, proof⟩
  let stdin ← buildStdin pcs batch.currentState batch.headers batch.medianHints none
  return ⟨pcs, stdin, expectedPv⟩

/-- `execute_batch_without_proof` from the execution on. -/
def executeUnproven (execute : Stdin Inner Vk → Except String Bytes)
    (input : ExecutionInput Inner Vk) : Except BoxError Unit := do
  let publicValues ← (execute input.stdin).mapError .other
  verifyPublicValues publicValues input.expectedPv "execution"

def executeBatchWithoutProof (execute : Stdin Inner Vk → Except String Bytes)
    (batch : PreparedBatch Inner) : Except BoxError (ExecutionInput Inner Vk) := do
  let input ← unprovenInput lib batch
  executeUnproven execute input
  return input

/-- `generate_compressed_proof` after the execution. -/
def proveInput (prover : Prover Inner Vk) (executed : ExecutionInput Inner Vk) :
    Except BoxError (ProofWithPublicValues Inner) := do
  let compressedProof ← (prover.proveCompressed executed.stdin).mapError .other
  verifyPublicValues compressedProof.publicValues executed.expectedPv "compressed proof"
  (prover.verify compressedProof).mapError .other
  return compressedProof

def generateCompressedProof (prover : Prover Inner Vk) (batch : PreparedBatch Inner) :
    Except BoxError (ProofWithPublicValues Inner) := do
  let executed ← executeBatchWithProver lib hashU32 prover batch
  proveInput prover executed

end Execute

/-! ## What the guest finds -/

section Accepted

variable {lib : HashLibrary} {hashU32 : Vk → VerifierKeyDigest} {batch : PreparedBatch Inner}
  {input : ExecutionInput Inner Vk}

/-- The public values of a successful run that ended in a state. -/
def endedIn (state : State) (verifierKey : VerifierKeyDigest) : MinimalPublicValues :=
  .success state.publicClaim (Sha256.hash state.continuationBytes) verifierKey

/-- The inputs serialized for a state pass the guest's checks before SP1 verification. -/
structure ExecutionInput.Accepted (input : ExecutionInput Inner Vk) (state : State) : Prop where
  buffers : ∃ rest, input.stdin.buffers = input.pcs.toBytes :: state.toBytes :: rest
  checks : PriorChecks input.pcs state

/-- Whatever path made them, the inputs of a batch carry its claim, and so are accepted as soon as
the proof record is. -/
structure ExecutionInput.For (input : ExecutionInput Inner Vk) (batch : PreparedBatch Inner)
    (verifierKey : VerifierKeyDigest) (proof : Proof) : Prop where
  pcs : input.pcs = ⟨batch.currentState.publicClaim, verifierKey, proof⟩
  buffers : input.stdin.buffers = [input.pcs.toBytes, batch.currentState.toBytes,
    serializeNewHeaders batch.headers, serializeMedianHints batch.medianHints]
  expectedPv : input.expectedPv = (MinimalPublicValues.success batch.expectedState.publicClaim
    batch.expectedContinuationDigest verifierKey).toBytes

theorem ExecutionInput.For.accepted_iff {verifierKey : VerifierKeyDigest} {proof : Proof}
    (h : input.For batch verifierKey proof) : input.Accepted batch.currentState ↔
      proof.exitCode = 0 ∧ proof.publicValuesDigest =
        Sha256.hash (endedIn batch.currentState verifierKey).toBytes := by
  constructor
  · rintro ⟨_, hclaim, hexit, hdigest⟩
    rw [h.pcs] at hexit hdigest
    exact ⟨hexit, hdigest⟩
  · rintro ⟨hexit, hdigest⟩
    refine ⟨⟨_, h.buffers⟩, ?_, ?_, ?_⟩
    · rw [h.pcs]
    · rw [h.pcs]
      exact hexit
    · rw [h.pcs]
      exact hdigest

theorem proverInput_for {verifyingKey : Vk}
    (h : proverInput lib hashU32 verifyingKey batch = .ok input) :
    ∃ proof, buildProof lib hashU32 verifyingKey batch.previousProof =
        .ok (hashU32 verifyingKey, proof) ∧ input.For batch (hashU32 verifyingKey) proof := by
  unfold proverInput at h
  obtain ⟨⟨verifierKey, proof⟩, hproof, h⟩ := bind_ok.1 h
  obtain ⟨stdin, hstdin, h⟩ := bind_ok.1 h
  have hkey : verifierKey = hashU32 verifyingKey := by
    unfold buildProof at hproof
    split at hproof
    · obtain ⟨exitCode, -, hproof⟩ := bind_ok.1 hproof
      exact (Prod.mk.inj (Except.ok.inj hproof)).1.symm
    · exact (Prod.mk.inj (Except.ok.inj hproof)).1.symm
  subst hkey
  refine ⟨proof, hproof, ?_⟩
  rw [← Except.ok.inj h]
  exact ⟨rfl, buildStdin_buffers hstdin, rfl⟩

/-- Inputs are serialized for a batch without a previous proof, and for one with a compressed proof
of a success, which is attached. -/
theorem exists_proverInput (lib : HashLibrary) (hashU32 : Vk → VerifierKeyDigest)
    (verifyingKey : Vk) {batch : PreparedBatch Inner}
    (hprevious : ∀ prevProof, batch.previousProof = some prevProof → ∃ inner c d k,
      prevProof = ⟨.compressed inner, (MinimalPublicValues.success c d k).toBytes⟩) :
    ∃ input, proverInput lib hashU32 verifyingKey batch = .ok input ∧
      ∀ inner publicValues, batch.previousProof = some ⟨.compressed inner, publicValues⟩ →
        (inner, verifyingKey) ∈ input.stdin.proofs := by
  unfold proverInput
  cases hbatch : batch.previousProof with
  | none => exact ⟨_, rfl, fun _ _ h => nomatch h⟩
  | some prevProof =>
    obtain ⟨inner, claim, digest, key, rfl⟩ := hprevious _ hbatch
    generalize hvalues : (MinimalPublicValues.success claim digest key).toBytes = publicValues
    rw [buildProof_success lib hashU32 verifyingKey hvalues.symm]
    obtain ⟨stdin, hstdin, hmem⟩ := buildStdin_compressed
      ⟨batch.currentState.publicClaim, hashU32 verifyingKey,
        { Proof.default with publicValuesDigest := lib.publicValuesHash publicValues }⟩
      batch.currentState batch.headers batch.medianHints inner publicValues verifyingKey
    refine ⟨_, bind_ok.2 ⟨_, rfl, bind_ok.2 ⟨stdin, hstdin, rfl⟩⟩, fun inner' values h => ?_⟩
    cases h
    exact hmem

/-- With a previous proof of a run that ended in the current state the inputs are accepted. -/
theorem proverInput_accepted (hlib : lib.Fips) {verifyingKey : Vk}
    {prevProof : ProofWithPublicValues Inner} (hprevious : batch.previousProof = some prevProof)
    (hvalues : prevProof.publicValues =
      (endedIn batch.currentState (hashU32 verifyingKey)).toBytes)
    (h : proverInput lib hashU32 verifyingKey batch = .ok input) :
    input.Accepted batch.currentState := by
  obtain ⟨proof, hproof, hfor⟩ := proverInput_for h
  rw [hprevious, buildProof_success lib hashU32 verifyingKey hvalues] at hproof
  have hrecord := (Prod.mk.inj (Except.ok.inj hproof)).2
  refine hfor.accepted_iff.2 ?_
  rw [← hrecord, ← hvalues]
  exact ⟨rfl, hlib.publicValuesHash _⟩

/-- Without one they are accepted only if the digest the guest computes is zero. -/
theorem proverInput_accepted_iff {verifyingKey : Vk} (hprevious : batch.previousProof = none)
    (h : proverInput lib hashU32 verifyingKey batch = .ok input) :
    input.Accepted batch.currentState ↔
      Sha256.hash (endedIn batch.currentState input.pcs.verifierKey).toBytes =
        Vector.replicate 32 0 := by
  obtain ⟨proof, hproof, hfor⟩ := proverInput_for h
  rw [hprevious] at hproof
  have hrecord : Proof.default = proof := (Prod.mk.inj (Except.ok.inj hproof)).2
  rw [hfor.accepted_iff, ← hrecord, hfor.pcs]
  constructor
  · rintro ⟨-, hdigest⟩
    exact hdigest.symm
  · intro hdigest
    exact ⟨rfl, hdigest.symm⟩

theorem unprovenInput_for (h : unprovenInput lib batch = .ok input) :
    input.For batch defaultVerifierKey { Proof.default with
      publicValuesDigest := computePvDigest lib (MinimalPublicValues.success
        batch.currentState.publicClaim (continuationDigestFromState lib batch.currentState)
        defaultVerifierKey).toBytes } := by
  unfold unprovenInput at h
  obtain ⟨stdin, hstdin, h⟩ := bind_ok.1 h
  rw [← Except.ok.inj h]
  exact ⟨rfl, buildStdin_buffers hstdin, rfl⟩

/-- `execute_batch_without_proof` makes up the proof record the guest expects. -/
theorem unprovenInput_accepted (hlib : lib.Fips) (h : unprovenInput lib batch = .ok input) :
    input.Accepted batch.currentState := by
  refine (unprovenInput_for h).accepted_iff.2 ⟨rfl, ?_⟩
  rw [computePvDigest, hlib.publicValuesHash, continuationDigestFromState_eq hlib]
  rfl

end Accepted

/-! ## Execution of accepted inputs -/

section Execution

variable {sys : Sha256Syscalls} {lib : HashLibrary} {batch : PreparedBatch Inner}
  {input : ExecutionInput Inner Vk} {verifierKey : VerifierKeyDigest} {proof : Proof}

/-- The buffers of a batch, each at address zero. -/
def ExecutionInput.atZero (input : ExecutionInput Inner Vk) (batch : PreparedBatch Inner) :
    GuestInput :=
  ⟨input.pcs.toBytes, batch.currentState.toBytes, ⟨0, serializeNewHeaders batch.headers⟩,
    ⟨0, serializeMedianHints batch.medianHints⟩⟩

theorem ExecutionInput.For.delivers (hfor : input.For batch verifierKey proof) :
    input.stdin.Delivers (input.atZero batch) := ⟨hfor.buffers, rfl, rfl⟩

/-- Execution runs the guest; deferred proofs are not verified. -/
def RunsGuest (sys : Sha256Syscalls) (execute : Stdin Inner Vk → Except String Bytes) : Prop :=
  ∀ stdin input out, stdin.Delivers input →
    guestMain sys (fun _ _ => true) input = .ok out → execute stdin = .ok out

/-- On the inputs of a batch, once accepted, the guest commits the public values the host
expects. -/
theorem ExecutionInput.For.guestMain_expected {verify : Sp1Verifier} (hsys : sys.Fips)
    (hlib : lib.Fips) (hfor : input.For batch verifierKey proof)
    (hreplay : computeFinalStateWithHints lib batch.currentState batch.headers
      batch.medianHints = .ok batch.expectedState)
    (hdigest : batch.expectedContinuationDigest =
      continuationDigestFromState lib batch.expectedState)
    (haccepted : 0 < batch.currentState.height → input.Accepted batch.currentState)
    (hverify : 0 < batch.currentState.height →
      verify input.pcs.verifierKey input.pcs.proof.publicValuesDigest = true) :
    guestMain sys verify (input.atZero batch) = .ok input.expectedPv := by
  have happly := computeFinalStateWithHints_ok.1 hreplay
  have hlen := (applyHeaders_ok_iff.1 happly).1.length_eq
  rw [guestMain_checked hsys hlib hlen (by rw [hfor.pcs]) (fun h => (haccepted h).checks)
    hverify (reads_of_buffers hfor.buffers hfor.delivers), happly, hfor.expectedPv, hdigest,
    ← committedPublicValues_success hsys hlib, hfor.pcs]
  rfl

/-- The inputs of a batch, once accepted, execute to the public values the host expects. -/
theorem RunsGuest.expected {execute : Stdin Inner Vk → Except String Bytes}
    (hexecute : RunsGuest sys execute) (hsys : sys.Fips) (hlib : lib.Fips)
    (hfor : input.For batch verifierKey proof)
    (hreplay : computeFinalStateWithHints lib batch.currentState batch.headers
      batch.medianHints = .ok batch.expectedState)
    (hdigest : batch.expectedContinuationDigest =
      continuationDigestFromState lib batch.expectedState)
    (haccepted : 0 < batch.currentState.height → input.Accepted batch.currentState) :
    execute input.stdin = .ok input.expectedPv :=
  hexecute _ _ _ hfor.delivers
    (hfor.guestMain_expected hsys hlib hreplay hdigest haccepted fun _ => rfl)

/-- On a record of exit code zero that is not accepted the guest panics at the digest. -/
theorem ExecutionInput.For.rejected {verify : Sp1Verifier} {guestInput : GuestInput}
    (hsys : sys.Fips) (hfor : input.For batch verifierKey proof)
    (hlen : batch.headers.length = batch.medianHints.length)
    (hheight : 0 < batch.currentState.height) (hexit : proof.exitCode = 0)
    (hrejected : ¬ input.Accepted batch.currentState)
    (hdelivers : input.stdin.Delivers guestInput) :
    guestMain sys verify guestInput = .error .publicValuesDigestMismatch := by
  have hdigest : publicValuesDigest sys (priorPublicValues sys verifierKey
      batch.currentState.publicClaim batch.currentState) ≠ proof.publicValuesDigest := by
    rw [publicValuesDigest_prior hsys]
    exact fun h => hrejected (hfor.accepted_iff.2 ⟨hexit, h.symm⟩)
  have hprior : checkPriorProof sys verify input.pcs batch.currentState =
      .error .publicValuesDigestMismatch := by
    rw [hfor.pcs]
    unfold checkPriorProof verifyPriorProof
    rw [if_pos (show batch.currentState.publicClaim.height > 0 from hheight),
      if_neg (not_not.2 hexit), if_pos hdigest]
  rw [guestMain_delivered (reads_of_buffers hfor.buffers hdelivers) hlen (by rw [hfor.pcs]), hprior]
  rfl

/-- The public values the host expects are those of a success. -/
theorem ExecutionInput.For.parse_expectedPv (hfor : input.For batch verifierKey proof) :
    HeaderChainPublicValues.parse input.expectedPv = .ok (.success
      batch.expectedState.publicClaim batch.expectedContinuationDigest verifierKey) := by
  rw [hfor.expectedPv, HeaderChainPublicValues.parse_success]

theorem verifyPublicValues_expected (hfor : input.For batch verifierKey proof) (label : String) :
    verifyPublicValues input.expectedPv input.expectedPv label = .ok () := by
  rw [verifyPublicValues, hfor.parse_expectedPv]
  exact if_neg (not_not.2 rfl)

theorem executeInput_ok {prover : Prover Inner Vk} (hfor : input.For batch verifierKey proof)
    (hexecute : prover.execute input.stdin = .ok input.expectedPv) :
    executeInput prover input = .ok () := by
  rw [executeInput, hexecute]
  show (match HeaderChainPublicValues.parse input.expectedPv with
    | .ok (.success ..) => verifyPublicValues input.expectedPv input.expectedPv "execution"
    | .ok (.failure failure ..) => .error (.executionFailed failure)
    | .error e => .error (.executionMalformed e)) = _
  rw [hfor.parse_expectedPv]
  exact verifyPublicValues_expected hfor _

theorem executeUnproven_ok {execute : Stdin Inner Vk → Except String Bytes}
    (hfor : input.For batch verifierKey proof)
    (hexecute : execute input.stdin = .ok input.expectedPv) :
    executeUnproven execute input = .ok () := by
  rw [executeUnproven, hexecute]
  exact verifyPublicValues_expected hfor _

end Execution

end Zkpow.Host
