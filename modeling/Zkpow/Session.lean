import Zkpow.Pipeline

/-!
# A session

The host runs batch after batch, each resuming where the last one ended
(`crates/host/src/pipeline/mod.rs`, `pipeline/proof/mod.rs`).  The file system, the SP1 SDK and
the database file are parameters.

* `generateAndSaveProofs_eq` — a batch is started, then executed and proved;
* `Session` — the states a session reaches between batches;
* `startedBatch_accepted` — which batches the guest can accept.
-/

set_option autoImplicit false

namespace Zkpow.Host

open ByteCodec ExceptFold KeyedTable

/-! ## The outside -/

/-- The files proofs are saved to and loaded from. -/
structure FileSystem (Files Inner : Type) where
  createDirAll : PathBuf → Files → Except String Files
  load : Files → LoadProof Inner
  save : PathBuf → ProofWithPublicValues Inner → Files → Except String Files

/-- The SP1 SDK, for the guest's ELF. -/
structure Sdk (Inner Vk : Type) where
  hashU32 : Vk → VerifierKeyDigest
  /-- The client of a backend on a device, with the proving key it sets up. -/
  setup : ProverBackend → Option UInt32 → Except String (Prover Inner Vk)
  /-- Execution by a mock client that was not set up. -/
  mockExecute : Stdin Inner Vk → Except String Bytes
  /-- `generate_groth16_proof`. -/
  generateGroth16Proof : ProofWithPublicValues Inner → Vk →
    Except String (ProofWithPublicValues Inner)

structure Machine (Files Inner Vk : Type) where
  env : EnvSource
  cudaFeature : Bool
  dbPathDefault : PathBuf
  sessionTimestamp : String
  connect : PathBuf → Except String Table
  lib : HashLibrary
  sdk : Sdk Inner Vk
  fs : FileSystem Files Inner

/-- A text raised with `?`. -/
def raise (text : String) : HostStop := .error (.other text)

variable {Files Inner Vk : Type} (host : Machine Files Inner Vk)

/-! ## One batch, on the path its configuration chooses -/

structure ProofArtifacts (Inner : Type) where
  compressedPath : Option PathBuf
  groth16Path : Option PathBuf
  compressedProof : Option (ProofWithPublicValues Inner)
  groth16Proof : Option (ProofWithPublicValues Inner)
  firstNewHeight : UInt32
  endHeight : UInt32

def ProofArtifacts.executionOnly (batch : PreparedBatch Inner) : ProofArtifacts Inner :=
  ⟨none, none, none, none, batch.firstNewHeight, batch.endHeight⟩

structure PreparedProver (Inner Vk : Type) where
  backend : ProverBackend
  prover : Prover Inner Vk

def getPreparedProver (proverBackend : ProverBackend) (cudaDeviceId : Option UInt32) :
    Except HostStop (PreparedProver Inner Vk) :=
  if proverBackend = .cuda ∧ ¬ host.cudaFeature then .error (.panic .cudaNotCompiled)
  else do
    let prover ← (host.sdk.setup proverBackend cudaDeviceId).mapError raise
    return ⟨proverBackend, prover⟩

section Batch

variable (config : ProofGenerationConfig) (db : Table) (files : Files)

/-- The batch a configuration asks for. -/
def configuredBatch : Except HostStop (PreparedBatch Inner) := do
  let genesisHash ← parseGenesisHash.mapError .error
  prepareBatch host.lib (host.fs.load files) db genesisHash config.prevProofPath
    config.trustedStartHeight config.numHeaders

def compressedPath (batch : PreparedBatch Inner) : PathBuf :=
  PathBuf.join config.outputDir
    s!"proof_height_{batch.firstNewHeight}_to_{batch.endHeight}.bin"

def groth16Path (batch : PreparedBatch Inner) : PathBuf :=
  PathBuf.join config.outputDir
    s!"proof_height_{batch.firstNewHeight}_to_{batch.endHeight}_groth16.bin"

/-- `run_with_prover` from the compressed proof on. -/
def saveProofs (prover : Prover Inner Vk) (batch : PreparedBatch Inner)
    (compressedProof : ProofWithPublicValues Inner) :
    Except HostStop (ProofArtifacts Inner × Files) := do
  let files ← (host.fs.createDirAll config.outputDir files).mapError raise
  let files ← (host.fs.save (compressedPath config batch) compressedProof files).mapError raise
  if config.mode = .proveCompressedAndGroth16 then do
    let groth16Proof ←
      (host.sdk.generateGroth16Proof compressedProof prover.verifyingKey).mapError raise
    let files ← (host.fs.save (groth16Path config batch) groth16Proof files).mapError raise
    return (⟨some (compressedPath config batch), some (groth16Path config batch),
      some compressedProof, some groth16Proof, batch.firstNewHeight, batch.endHeight⟩, files)
  else
    return (⟨some (compressedPath config batch), none, some compressedProof, none,
      batch.firstNewHeight, batch.endHeight⟩, files)

def runWithProver (prover : Prover Inner Vk) :
    Except HostStop (ProofArtifacts Inner × Files) := do
  let batch ← configuredBatch host config db files
  if config.mode = .executeOnly then do
    let _ ← (executeBatchWithProver host.lib host.sdk.hashU32 prover batch).mapError .error
    return (.executionOnly batch, files)
  else do
    let compressedProof ←
      (generateCompressedProof host.lib host.sdk.hashU32 prover batch).mapError .error
    saveProofs host config files prover batch compressedProof

def executeWithoutSetup : Except HostStop (ProofArtifacts Inner × Files) :=
  if config.prevProofPath.isSome then do
    let prepared ← getPreparedProver host config.proverBackend config.cudaDeviceId
    if prepared.backend = .mock then runWithProver host config db files prepared.prover
    else .error (.panic .notMockProver)
  else do
    let batch ← configuredBatch host config db files
    let _ ← (executeBatchWithoutProof host.lib host.sdk.mockExecute batch).mapError .error
    return (.executionOnly batch, files)

def generateAndSaveProofs : Except HostStop (ProofArtifacts Inner × Files) :=
  if config.mode = .executeOnly ∧ config.proverBackend = .mock then
    executeWithoutSetup host config db files
  else do
    let prepared ← getPreparedProver host config.proverBackend config.cudaDeviceId
    runWithProver host config db files prepared.prover

/-- `run_single_batch`; the rest of it logs. -/
def runSingleBatch : Except HostStop (ProofArtifacts Inner × Files) :=
  generateAndSaveProofs host config db files

/-! ## Starting a batch -/

/-- A batch whose inputs are serialized. -/
structure StartedBatch (Inner Vk : Type) where
  batch : PreparedBatch Inner
  input : ExecutionInput Inner Vk
  /-- The prover that executes it, on the path that sets one up. -/
  prover : Option (Prover Inner Vk)

def startWithProver (prover : Prover Inner Vk) : Except HostStop (StartedBatch Inner Vk) := do
  let batch ← configuredBatch host config db files
  let input ←
    (proverInput host.lib host.sdk.hashU32 prover.verifyingKey batch).mapError .error
  return ⟨batch, input, some prover⟩

def startWithoutProof : Except HostStop (StartedBatch Inner Vk) := do
  let batch ← configuredBatch host config db files
  let input ← (unprovenInput host.lib batch).mapError .error
  return ⟨batch, input, none⟩

/-- The configurations whose batches are executed without a proof. -/
def ProofGenerationConfig.WithoutProof (config : ProofGenerationConfig) : Prop :=
  config.mode = .executeOnly ∧ config.proverBackend = .mock ∧ config.prevProofPath = none

instance : Decidable config.WithoutProof := by
  unfold ProofGenerationConfig.WithoutProof; exact inferInstance

/-- A batch up to its execution. -/
def startBatch : Except HostStop (StartedBatch Inner Vk) :=
  if config.WithoutProof then startWithoutProof host config db files
  else do
    let prepared ← getPreparedProver host config.proverBackend config.cudaDeviceId
    startWithProver host config db files prepared.prover

/-- A batch from its execution on. -/
def finishBatch (started : StartedBatch Inner Vk) :
    Except HostStop (ProofArtifacts Inner × Files) :=
  match started.prover with
  | none => do
    (executeUnproven host.sdk.mockExecute started.input).mapError .error
    return (.executionOnly started.batch, files)
  | some prover => do
    (executeInput prover started.input).mapError .error
    if config.mode = .executeOnly then return (.executionOnly started.batch, files)
    else do
      let compressedProof ← (proveInput prover started.input).mapError .error
      saveProofs host config files prover started.batch compressedProof

theorem runWithProver_eq (prover : Prover Inner Vk) :
    runWithProver host config db files prover =
      startWithProver host config db files prover >>= finishBatch host config files := by
  unfold runWithProver startWithProver
  simp only [bind_assoc, pure_bind]
  congr 1
  funext batch
  unfold executeBatchWithProver generateCompressedProof executeBatchWithProver finishBatch
  simp only [mapError_bind, bind_assoc]
  split <;> rfl

theorem startWithoutProof_bind :
    (startWithoutProof host config db files >>= finishBatch host config files) = (do
      let batch ← configuredBatch host config db files
      let _ ← (executeBatchWithoutProof host.lib host.sdk.mockExecute batch).mapError .error
      return (.executionOnly batch, files)) := by
  unfold startWithoutProof
  simp only [bind_assoc, pure_bind]
  congr 1
  funext batch
  unfold executeBatchWithoutProof finishBatch
  simp only [mapError_bind, bind_assoc]
  rfl

theorem getPreparedProver_backend {host : Machine Files Inner Vk} {proverBackend : ProverBackend}
    {cudaDeviceId : Option UInt32} {prepared : PreparedProver Inner Vk}
    (h : getPreparedProver host proverBackend cudaDeviceId = .ok prepared) :
    prepared.backend = proverBackend := by
  unfold getPreparedProver at h
  split at h
  · cases h
  · obtain ⟨prover, -, h⟩ := bind_ok.1 h
    rw [← Except.ok.inj h]

theorem getPreparedProver_ok {host : Machine Files Inner Vk} {proverBackend : ProverBackend}
    {cudaDeviceId : Option UInt32} {prover : Prover Inner Vk}
    (hfeature : proverBackend = .cuda → host.cudaFeature = true)
    (hsetup : host.sdk.setup proverBackend cudaDeviceId = .ok prover) :
    getPreparedProver host proverBackend cudaDeviceId = .ok ⟨proverBackend, prover⟩ := by
  unfold getPreparedProver
  rw [if_neg fun h => h.2 (hfeature h.1), hsetup]
  rfl

/-- A batch is started, then executed and, if asked for, proved. -/
theorem generateAndSaveProofs_eq : generateAndSaveProofs host config db files =
    startBatch host config db files >>= finishBatch host config files := by
  unfold generateAndSaveProofs startBatch
  by_cases hmock : config.mode = .executeOnly ∧ config.proverBackend = .mock
  · rw [if_pos hmock]
    unfold executeWithoutSetup
    by_cases hprev : config.prevProofPath = none
    · rw [if_neg (by rw [hprev]; decide), if_pos ⟨hmock.1, hmock.2, hprev⟩,
        startWithoutProof_bind]
    -- a previous proof needs the prover after all
    · rw [if_pos (Option.isSome_iff_ne_none.2 hprev), if_neg fun h => hprev h.2.2]
      cases hprepared : getPreparedProver host config.proverBackend config.cudaDeviceId with
      | error e => rfl
      | ok prepared =>
        have hbackend := (getPreparedProver_backend hprepared).trans hmock.2
        simp only [bind, Except.bind, if_pos hbackend]
        exact runWithProver_eq host config db files prepared.prover
  · rw [if_neg hmock, if_neg fun h => hmock ⟨h.1, h.2.1⟩]
    simp only [bind_assoc, runWithProver_eq]

end Batch

/-! ## The session -/

/-- What the session carries from batch to batch. -/
structure SessionState (Files : Type) where
  batchCount : UInt32
  currentPrevProof : Option PathBuf
  trustedStartHeight : Option UInt32
  files : Files

section Loop

variable (config : ProofGenerationConfig) (db : Table) (outDir : PathBuf)

/-- The configuration of the next batch. -/
def SessionState.batchConfig (s : SessionState Files) : ProofGenerationConfig :=
  { config with
    outputDir := outDir
    prevProofPath := s.currentPrevProof
    trustedStartHeight := s.trustedStartHeight }

/-- The state after a completed batch. -/
def SessionState.next (s : SessionState Files) (artifacts : ProofArtifacts Inner)
    (files : Files) : SessionState Files :=
  if config.executeOnly then ⟨s.batchCount + 1, none, some artifacts.endHeight, files⟩
  else ⟨s.batchCount + 1, artifacts.compressedPath, none, files⟩

theorem SessionState.next_batchCount (s : SessionState Files) (artifacts : ProofArtifacts Inner)
    (files : Files) : (s.next config artifacts files).batchCount = s.batchCount + 1 := by
  unfold SessionState.next
  split <;> rfl

def isHeaderExhaustionError (err : BoxError) : Bool :=
  NO_HEADERS_REMAINING_PREFIX.toList.isPrefixOf err.display.toList

/-- The loop of `run_batch_session`; a batch that finds no header left is not counted. -/
def runBatches (s : SessionState Files) : Except HostStop UInt32 :=
  if _h : s.batchCount < config.batchCount then
    match host.fs.createDirAll outDir s.files with
    | .error text => .error (raise text)
    | .ok files =>
      match runSingleBatch host (s.batchConfig config outDir) db files with
      | .ok (artifacts, files) => runBatches (s.next config artifacts files)
      | .error (.panic p) => .error (.panic p)
      | .error (.error err) =>
        if isHeaderExhaustionError err then .ok (s.batchCount + 1 - 1)
        else .error (.error err)
  else .ok s.batchCount
  termination_by config.batchCount.toNat - s.batchCount.toNat
  decreasing_by
    have hlt : s.batchCount.toNat < config.batchCount.toNat := by assumption
    have hbound := config.batchCount.toNat_lt
    rw [SessionState.next_batchCount, toNat_add_one (by omega)]
    omega

def sessionOutDir : PathBuf :=
  if PathBuf.isCurDir config.outputDir then "profiling/sp1/continuous/" ++ host.sessionTimestamp
  else config.outputDir

def SessionState.start (files : Files) : SessionState Files :=
  ⟨0, config.prevProofPath, none, files⟩

end Loop

def runBatchSession (files : Files) : Except HostStop UInt32 := do
  let config ←
    (configFromSource host.cudaFeature host.dbPathDefault host.env).mapError .error
  let db ← (host.connect config.dbPath).mapError fun e =>
    raise ("failed to open database: " ++ e)
  runBatches host config db (sessionOutDir host config) (.start config files)

/-! ## The states of a session -/

/-- The states a session reaches between batches, with the batches it has completed. -/
inductive Session (config : ProofGenerationConfig) (db : Table) (outDir : PathBuf)
    (files₀ : Files) : SessionState Files → List (ProofArtifacts Inner) → Prop
  | start : Session config db outDir files₀ (.start config files₀) []
  | turn {s : SessionState Files} {completed : List (ProofArtifacts Inner)} {files files' : Files}
      {artifacts : ProofArtifacts Inner} :
      Session config db outDir files₀ s completed → s.batchCount < config.batchCount →
      host.fs.createDirAll outDir s.files = .ok files →
      runSingleBatch host (s.batchConfig config outDir) db files = .ok (artifacts, files') →
      Session config db outDir files₀ (s.next config artifacts files') (completed ++ [artifacts])

/-- The states `run_batch_session` reaches, with the configuration and the database it runs on. -/
structure Reached (files₀ : Files) (config : ProofGenerationConfig) (db : Table)
    (s : SessionState Files) (completed : List (ProofArtifacts Inner)) : Prop where
  configured : configFromSource host.cudaFeature host.dbPathDefault host.env = .ok config
  connected : host.connect config.dbPath = .ok db
  session : Session host config db (sessionOutDir host config) files₀ s completed

section Reached

variable {host} {config : ProofGenerationConfig} {db : Table} {outDir : PathBuf} {files₀ : Files}
  {s : SessionState Files} {completed : List (ProofArtifacts Inner)}

/-- The loop goes on from every state reached: the session ends as it does from there. -/
theorem Session.runBatches_eq (h : Session host config db outDir files₀ s completed) :
    runBatches host config db outDir (.start config files₀) =
      runBatches host config db outDir s := by
  induction h with
  | start => rfl
  | turn hs hlt hdir hrun ih =>
    rw [ih, runBatches, dif_pos hlt, hdir]
    simp only
    rw [hrun]

/-- A run ends as its loop ends from any state it reaches. -/
theorem Reached.runBatchSession_eq (h : Reached host files₀ config db s completed) :
    runBatchSession host files₀ =
      runBatches host config db (sessionOutDir host config) s := by
  unfold runBatchSession
  rw [h.configured]
  simp only [Except.mapError, bind, Except.bind]
  rw [h.connected]
  exact h.session.runBatches_eq

/-- Only execute-only sessions resume from a trusted height, and then without a proof. -/
theorem Session.trusted (h : Session host config db outDir files₀ s completed)
    (htrusted : s.trustedStartHeight.isSome = true) :
    config.executeOnly = true ∧ s.currentPrevProof = none := by
  cases h with
  | start => cases htrusted
  | turn hs hlt hdir hrun =>
    unfold SessionState.next at htrusted ⊢
    split at htrusted
    · rename_i hexec
      rw [if_pos hexec]
      exact ⟨hexec, rfl⟩
    · cases htrusted

end Reached

/-! ## What the guest is given -/

section Started

variable {host} {config : ProofGenerationConfig} {db : Table} {files : Files}
  {started : StartedBatch Inner Vk}

/-- The two ways a batch is started. -/
theorem startBatch_cases (h : startBatch host config db files = .ok started) :
    configuredBatch host config db files = .ok started.batch ∧
      ((config.WithoutProof ∧ started.prover = none ∧
          unprovenInput host.lib started.batch = .ok started.input) ∨
        (¬ config.WithoutProof ∧ ∃ prepared,
          getPreparedProver host config.proverBackend config.cudaDeviceId = .ok prepared ∧
          started.prover = some prepared.prover ∧
          proverInput host.lib host.sdk.hashU32 prepared.prover.verifyingKey started.batch =
            .ok started.input)) := by
  unfold startBatch at h
  split at h
  · rename_i hwithout
    unfold startWithoutProof at h
    obtain ⟨batch, hbatch, h⟩ := bind_ok.1 h
    obtain ⟨input, hinput, h⟩ := bind_ok.1 h
    rw [← Except.ok.inj h]
    exact ⟨hbatch, .inl ⟨hwithout, rfl, mapError_ok.1 hinput⟩⟩
  · rename_i hwith
    obtain ⟨prepared, hprepared, h⟩ := bind_ok.1 h
    unfold startWithProver at h
    obtain ⟨batch, hbatch, h⟩ := bind_ok.1 h
    obtain ⟨input, hinput, h⟩ := bind_ok.1 h
    rw [← Except.ok.inj h]
    exact ⟨hbatch, .inr ⟨hwith, prepared, hprepared, rfl, mapError_ok.1 hinput⟩⟩

theorem configuredBatch_ok {batch : PreparedBatch Inner} :
    configuredBatch host config db files = .ok batch ↔
      batch.Spec host.lib (host.fs.load files) db GENESIS_HASH config.prevProofPath
        config.trustedStartHeight config.numHeaders := by
  unfold configuredBatch
  rw [parseGenesisHash_eq]
  exact prepareBatch_ok

/-- A prepared batch is started as soon as its prover is, unless its previous proof is of another
kind or of a failure. -/
theorem exists_startBatch {batch : PreparedBatch Inner} {prepared : PreparedProver Inner Vk}
    (hprepared : getPreparedProver host config.proverBackend config.cudaDeviceId = .ok prepared)
    (hbatch : configuredBatch host config db files = .ok batch)
    (hprevious : ∀ prevProof, batch.previousProof = some prevProof → ∃ inner c d k,
      prevProof = ⟨.compressed inner, (MinimalPublicValues.success c d k).toBytes⟩) :
    ∃ started, startBatch host config db files = .ok started ∧ started.batch = batch := by
  unfold startBatch
  split
  · unfold startWithoutProof
    rw [hbatch]
    exact ⟨_, rfl, rfl⟩
  · rw [hprepared]
    show ∃ started, startWithProver host config db files prepared.prover = .ok started ∧
      started.batch = batch
    obtain ⟨input, hinput, -⟩ := exists_proverInput host.lib host.sdk.hashU32
      prepared.prover.verifyingKey hprevious
    exact ⟨⟨batch, input, some prepared.prover⟩,
      bind_ok.2 ⟨batch, hbatch, bind_ok.2 ⟨input, mapError_ok.2 hinput, rfl⟩⟩, rfl⟩

/-- An execute-only batch whose inputs are accepted completes. -/
theorem finishBatch_executeOnly {sys : Sha256Syscalls} (hsys : sys.Fips) (hlib : host.lib.Fips)
    (hmock : RunsGuest sys host.sdk.mockExecute)
    (hprover : ∀ prepared,
      getPreparedProver host config.proverBackend config.cudaDeviceId = .ok prepared →
        RunsGuest sys prepared.prover.execute)
    (hmode : config.mode = .executeOnly) (h : startBatch host config db files = .ok started)
    (haccepted : 0 < started.batch.currentState.height →
      started.input.Accepted started.batch.currentState) :
    finishBatch host config files started = .ok (.executionOnly started.batch, files) := by
  obtain ⟨hbatch, hpath⟩ := startBatch_cases h
  have hspec := configuredBatch_ok.1 hbatch
  unfold finishBatch
  rcases hpath with ⟨-, hnone, hinput⟩ | ⟨-, prepared, hprepared, hsome, hinput⟩
  · rw [hnone]
    have hfor := unprovenInput_for hinput
    simp only
    rw [executeUnproven_ok hfor (hmock.expected hsys hlib hfor hspec.replay hspec.digest haccepted)]
    rfl
  · rw [hsome]
    obtain ⟨proof, -, hfor⟩ := proverInput_for hinput
    simp only
    rw [executeInput_ok hfor ((hprover prepared hprepared).expected hsys hlib hfor hspec.replay
      hspec.digest haccepted), if_pos hmode]
    rfl

end Started

/-- **Which batches the guest can accept.**  In every state a session reaches, the inputs
serialized for a batch above genesis pass the guest's checks if the batch has a previous proof or
the backend is the mock one.  Otherwise they carry the digest zero, and pass only if that is the
digest the guest computes. -/
theorem startedBatch_accepted {host : Machine Files Inner Vk} (hlib : host.lib.Fips)
    {config : ProofGenerationConfig} {db : Table} {files₀ files : Files} {s : SessionState Files}
    {completed : List (ProofArtifacts Inner)} {started : StartedBatch Inner Vk}
    (hs : Reached host files₀ config db s completed)
    (hstart : startBatch host (s.batchConfig config (sessionOutDir host config)) db files =
      .ok started)
    (hheight : 0 < started.batch.currentState.height)
    (hprevious : ∀ prevProof prover, started.batch.previousProof = some prevProof →
      started.prover = some prover → prevProof.publicValues =
        (endedIn started.batch.currentState (host.sdk.hashU32 prover.verifyingKey)).toBytes) :
    (s.currentPrevProof.isSome = true ∨ config.proverBackend = .mock →
      started.input.Accepted started.batch.currentState) ∧
    (¬ (s.currentPrevProof.isSome = true ∨ config.proverBackend = .mock) →
      (started.input.Accepted started.batch.currentState ↔
        Sha256.hash (endedIn started.batch.currentState started.input.pcs.verifierKey).toBytes =
          Vector.replicate 32 0)) := by
  obtain ⟨hbatch, hpath⟩ := startBatch_cases hstart
  have hspec := configuredBatch_ok.1 hbatch
  have hisSome : started.batch.previousProof.isSome = s.currentPrevProof.isSome :=
    loadOptionalProof_isSome hspec.previousProof
  refine ⟨fun hcond => ?_, fun hcond => ?_⟩
  · rcases hpath with ⟨-, -, hinput⟩ | ⟨hwith, prepared, -, hprover, hinput⟩
    · exact unprovenInput_accepted hlib hinput
    · -- the mock backend without a previous proof resumes from a trusted height
      have hproof : s.currentPrevProof.isSome = true := by
        rcases hcond with hproof | hmock
        · exact hproof
        · rcases hspec.resumed hheight with hproof | htrusted
          · exact hproof
          · obtain ⟨hexec, hnone⟩ := hs.session.trusted htrusted
            exact absurd ⟨mode_eq_executeOnly.2 hexec, hmock, hnone⟩ hwith
      obtain ⟨prevProof, hprev⟩ := Option.isSome_iff_exists.1 (hisSome.trans hproof)
      exact proverInput_accepted hlib hprev (hprevious prevProof _ hprev hprover) hinput
  · obtain ⟨hnone, hmock⟩ := not_or.1 hcond
    rcases hpath with ⟨hwithout, -⟩ | ⟨-, prepared, -, -, hinput⟩
    · exact absurd hwithout.2.1 hmock
    · refine proverInput_accepted_iff ?_ hinput
      rw [← Option.not_isSome_iff_eq_none, hisSome]
      exact hnone

/-! ## Two batches of the main chain -/

section Mainnet

/-- The hashes of the blocks of heights 0, 1 and 2. -/
def mainnetHash : Nat → BlockHash
  | 0 => GENESIS_HASH
  | 1 => #v[
      0x48, 0x60, 0xeb, 0x18, 0xbf, 0x1b, 0x16, 0x20, 0xe3, 0x7e, 0x94, 0x90,
      0xfc, 0x8a, 0x42, 0x75, 0x14, 0x41, 0x6f, 0xd7, 0x51, 0x59, 0xab, 0x86,
      0x68, 0x8e, 0x9a, 0x83, 0x00, 0x00, 0x00, 0x00]
  | _ => #v[
      0xbd, 0xdd, 0x99, 0xcc, 0xfd, 0xa3, 0x9d, 0xa1, 0xb1, 0x08, 0xce, 0x1a,
      0x5d, 0x70, 0x03, 0x8d, 0x0a, 0x96, 0x7b, 0xac, 0xb6, 0x8b, 0x6b, 0x63,
      0x06, 0x5f, 0x62, 0x6a, 0x00, 0x00, 0x00, 0x00]

def mainnetMerkleRoot : Nat → Bytes32
  | 0 => #v[
      0x3b, 0xa3, 0xed, 0xfd, 0x7a, 0x7b, 0x12, 0xb2, 0x7a, 0xc7, 0x2c, 0x3e,
      0x67, 0x76, 0x8f, 0x61, 0x7f, 0xc8, 0x1b, 0xc3, 0x88, 0x8a, 0x51, 0x32,
      0x3a, 0x9f, 0xb8, 0xaa, 0x4b, 0x1e, 0x5e, 0x4a]
  | 1 => #v[
      0x98, 0x20, 0x51, 0xfd, 0x1e, 0x4b, 0xa7, 0x44, 0xbb, 0xbe, 0x68, 0x0e,
      0x1f, 0xee, 0x14, 0x67, 0x7b, 0xa1, 0xa3, 0xc3, 0x54, 0x0b, 0xf7, 0xb1,
      0xcd, 0xb6, 0x06, 0xe8, 0x57, 0x23, 0x3e, 0x0e]
  | _ => #v[
      0xd5, 0xfd, 0xcc, 0x54, 0x1e, 0x25, 0xde, 0x1c, 0x7a, 0x5a, 0xdd, 0xed,
      0xf2, 0x48, 0x58, 0xb8, 0xbb, 0x66, 0x5c, 0x9f, 0x36, 0xef, 0x74, 0x4e,
      0xe4, 0x2c, 0x31, 0x60, 0x22, 0xc9, 0x0f, 0x9b]

/-- The headers of the three blocks. -/
def mainnetHeader : Nat → Header
  | 0 => ⟨1, Vector.replicate 32 0, mainnetMerkleRoot 0, 1231006505, 0x1d00ffff, 2083236893⟩
  | 1 => ⟨1, mainnetHash 0, mainnetMerkleRoot 1, 1231469665, 0x1d00ffff, 2573394689⟩
  | _ => ⟨1, mainnetHash 1, mainnetMerkleRoot 2, 1231469744, 0x1d00ffff, 1639830024⟩

/-- The hint for each header: the median of the timestamps before it. -/
def mainnetMedian : Nat → BlockTimestamp
  | 0 => 0
  | 1 => 1231006505
  | _ => 1231469665

/-- The chain work at each height. -/
def mainnetWork (k : Nat) : ChainWork :=
  ⟨#v[UInt64.ofNat ((k + 1) * 0x100010001), 0, 0, 0]⟩

def mainnetRow (k : Nat) : Row where
  height := k
  blockHash := (mainnetHash k).toList
  version := 1
  prev := (mainnetHeader k).prevBlockhash.toList
  merkleRoot := (mainnetHeader k).merkleRoot.toList
  timestamp := (mainnetHeader k).timestamp.toNat
  nBits := 0x1d00ffff
  nonce := (mainnetHeader k).nonce.toNat
  chainwork := (mainnetWork k).toLeBytes.toList.reverse
  medianTimePast := (mainnetMedian k).toNat

def mainnetTable : Table := [mainnetRow 0, mainnetRow 1, mainnetRow 2]

theorem mainnetTable_onePer : OnePer Row.height mainnetTable mainnetRow 3 := by
  intro k hk
  interval_cases k <;> rfl

theorem hashHeader_mainnet {k : Nat} (hk : k < 3) :
    hashHeader .reference (mainnetHeader k) = mainnetHash k := by
  interval_cases k <;> decide +kernel

/-- The hash function, with the three known hashes in a table. -/
def mainnetHashHeader (header : Header) : BlockHash :=
  if header = mainnetHeader 0 then mainnetHash 0
  else if header = mainnetHeader 1 then mainnetHash 1
  else if header = mainnetHeader 2 then mainnetHash 2
  else hashHeader .reference header

theorem mainnetHashHeader_eq : mainnetHashHeader = hashHeader .reference := by
  have hknown {k : Nat} (hk : k < 3) (header : Header) : (if header = mainnetHeader k then
      mainnetHash k else hashHeader .reference header) = hashHeader .reference header := by
    split
    · rename_i h
      rw [h, hashHeader_mainnet hk]
    · rfl
  funext header
  unfold mainnetHashHeader
  rw [hknown (by decide), hknown (by decide), hknown (by decide)]

/-- The state at each height. -/
def mainnetState (k : Nat) : State where
  header := mainnetHeader k
  blockHash := mainnetHash k
  genesisHash := GENESIS_HASH
  currentNbits := GENESIS_NBITS
  height := UInt32.ofNat k
  chainWork := mainnetWork k
  currentWork := mainnetWork 0
  currentTarget := GENESIS_TARGET
  epochStartTimestamp := (mainnetHeader 0).timestamp
  timestamps := Vector.ofFn fun i => if i ≤ k then (mainnetHeader i).timestamp else 0

theorem stateFromDb_mainnet {k : Nat} (hk : k < 2) :
    stateFromDbAtHeight (hashHeader .reference) mainnetTable (UInt32.ofNat k) GENESIS_HASH =
      .ok (mainnetState k) := by
  rw [← mainnetHashHeader_eq]
  interval_cases k
  · decide +kernel
  · have hcurrent : loadHeaderRecord mainnetTable (1 : UInt32).toNat =
        .ok ⟨1, mainnetHeader 1, mainnetWork 1, mainnetMedian 1⟩ := by decide +kernel
    have hepoch : loadHeaderRecord mainnetTable (1 / EPOCH_LENGTH * EPOCH_LENGTH).toNat =
        .ok ⟨0, mainnetHeader 0, mainnetWork 0, mainnetMedian 0⟩ := by decide +kernel
    have hwindow : loadHeaderRecords mainnetTable 0 2 =
        .ok [⟨0, mainnetHeader 0, mainnetWork 0, mainnetMedian 0⟩,
          ⟨1, mainnetHeader 1, mainnetWork 1, mainnetMedian 1⟩] := by
      rw [loadHeaderRecords, selectHeights_eq mainnetTable_onePer (by decide)]
      decide +kernel
    show stateFromDbAtHeight mainnetHashHeader mainnetTable 1 GENESIS_HASH = _
    unfold stateFromDbAtHeight
    rw [if_neg (by decide)]
    refine bind_ok.2 ⟨_, hcurrent, bind_ok.2 ⟨_, hepoch, bind_ok.2 ⟨_, hwindow, ?_⟩⟩⟩
    decide +kernel

/-- The batch of one header that starts at a height. -/
def mainnetBatch (k : Nat) : PreparedBatch Unit where
  previousProof := none
  currentState := mainnetState k
  headers := [.fromHeader (mainnetHeader (k + 1))]
  medianHints := [mainnetMedian (k + 1)]
  expectedState := mainnetState (k + 1)
  expectedContinuationDigest := continuationDigestFromState .reference (mainnetState (k + 1))
  firstNewHeight := UInt32.ofNat (k + 1)
  endHeight := UInt32.ofNat (k + 1)

theorem replay_mainnet {k : Nat} (hk : k < 2) :
    computeFinalStateWithHints .reference (mainnetBatch k).currentState (mainnetBatch k).headers
      (mainnetBatch k).medianHints = .ok (mainnetBatch k).expectedState := by
  rw [computeFinalStateWithHints_ok, ← mainnetHashHeader_eq]
  interval_cases k <;> decide +kernel

/-- The batches of a session that starts at genesis. -/
theorem mainnetBatch_spec {load : LoadProof Unit} {k : Nat} (hk : k < 2)
    {trustedStartHeight : Option UInt32}
    (htrusted : trustedStartHeight = if k = 0 then none else some (UInt32.ofNat k)) :
    (mainnetBatch k).Spec .reference load mainnetTable GENESIS_HASH none trustedStartHeight 1 where
  previousProof := rfl
  currentState := by
    rw [htrusted]
    interval_cases k
    · exact mapError_ok.2 (stateFromDb_mainnet hk)
    · exact mapError_ok.2 (stateFromDb_mainnet hk)
  witness := by interval_cases k <;> decide +kernel
  headers := List.cons_ne_nil _ _
  replay := replay_mainnet hk
  endClaim := by interval_cases k <;> decide +kernel
  digest := rfl
  firstNewHeight := by interval_cases k <;> decide +kernel
  endHeight := by interval_cases k <;> decide +kernel

/-- Execution of the guest, with what `read_vec` returns at address zero. -/
def guestExecute (stdin : Stdin Unit Unit) : Except String Bytes :=
  match stdin.buffers with
  | [pcs, stateWitness, headerHints, medianHints] =>
    (guestMain .reference (fun _ _ => true)
      ⟨pcs, stateWitness, ⟨0, headerHints⟩, ⟨0, medianHints⟩⟩).mapError fun _ =>
        "guest panicked"
  | _ => .error "not four buffers"

theorem guestExecute_runsGuest : RunsGuest .reference guestExecute := by
  intro stdin input out hdelivers hout
  obtain ⟨run, hverify, rfl, hcommitted⟩ := guestMain_ok_iff.1 hout
  have hrun : guestMain .reference (fun _ _ => true) ⟨run.input.pcs, run.input.stateWitness,
      ⟨0, run.input.headerHints.bytes⟩, ⟨0, run.input.medianHints.bytes⟩⟩ = .ok out := by
    obtain ⟨-, hheaders⟩ := parseNewHeaders_ok.1 run.headers_parsed
    obtain ⟨-, hlen, hhints⟩ := parseMedianHints_ok.1 run.hints_parsed
    refine guestMain_ok_iff.2 ⟨{ run with
      input := ⟨run.input.pcs, run.input.stateWitness, ⟨0, run.input.headerHints.bytes⟩,
        ⟨0, run.input.medianHints.bytes⟩⟩
      headers_parsed := parseNewHeaders_ok.2 ⟨rfl, hheaders⟩
      hints_parsed := parseMedianHints_ok.2 ⟨rfl, hlen, hhints⟩ }, hverify, rfl, hcommitted⟩
  unfold guestExecute
  rw [hdelivers.buffers]
  exact mapError_ok.2 hrun

/-- Execute-only, two batches of one header, on the GPU or not. -/
def mainnetEnv (useCuda : Bool) : EnvSource := fun name =>
  if name = ENV_ZKPOW_EXECUTE_ONLY then .ok "1"
  else if name = ENV_ZKPOW_BATCH_SIZE then .ok "1"
  else if name = ENV_ZKPOW_BATCH_COUNT then .ok "2"
  else if name = ENV_ZKPOW_USE_CUDA then .ok (if useCuda then "1" else "0")
  else .error .notPresent

def mainnetConfig (useCuda : Bool) : ProofGenerationConfig :=
  ⟨none, none, 1, 2, "headers.db", ".", false, true, if useCuda then .cuda else .mock, none⟩

def mainnetProver : Prover Unit Unit where
  verifyingKey := ()
  execute := guestExecute
  proveCompressed stdin := (guestExecute stdin).map fun pv => ⟨.compressed (), pv⟩
  verify _ := .ok ()

/-- A build with the feature `CUDA`. -/
def mainnetMachine (useCuda : Bool) : Machine Unit Unit Unit where
  env := mainnetEnv useCuda
  cudaFeature := true
  dbPathDefault := "headers.db"
  sessionTimestamp := "0"
  connect _ := .ok mainnetTable
  lib := .reference
  sdk := {
    hashU32 := fun _ => exampleKey
    setup := fun _ _ => .ok mainnetProver
    mockExecute := guestExecute
    generateGroth16Proof := fun proof _ => .ok proof }
  fs := {
    createDirAll := fun _ files => .ok files
    load := fun _ _ => .error "No such file or directory"
    save := fun _ _ files => .ok files }

theorem configFromSource_mainnet (useCuda : Bool) :
    configFromSource true "headers.db" (mainnetEnv useCuda) = .ok (mainnetConfig useCuda) := by
  cases useCuda <;> decide +kernel

/-- The session before its batch number `k + 1`. -/
def mainnetSession (k : Nat) : SessionState Unit :=
  ⟨UInt32.ofNat k, none, if k = 0 then none else some (UInt32.ofNat k), ()⟩

theorem getPreparedProver_mainnet (useCuda : Bool) (proverBackend : ProverBackend) :
    getPreparedProver (mainnetMachine useCuda) proverBackend none =
      .ok ⟨proverBackend, mainnetProver⟩ := getPreparedProver_ok (fun _ => rfl) rfl

/-- The batch is started on either path. -/
theorem startBatch_mainnet (useCuda : Bool) (outDir : PathBuf) {k : Nat} (hk : k < 2) :
    ∃ started, startBatch (mainnetMachine useCuda)
        ((mainnetSession k).batchConfig (mainnetConfig useCuda) outDir) mainnetTable () =
          .ok started ∧ started.batch = mainnetBatch k := by
  exact exists_startBatch (getPreparedProver_mainnet useCuda _)
    (configuredBatch_ok.2 (mainnetBatch_spec hk rfl)) fun _ h => nomatch h

theorem mainnet_fips (useCuda : Bool) : (mainnetMachine useCuda).lib.Fips :=
  HashLibrary.reference_fips

theorem mainnet_mockExecute (useCuda : Bool) :
    RunsGuest .reference (mainnetMachine useCuda).sdk.mockExecute := guestExecute_runsGuest

/-- The first batch completes. -/
theorem reached_mainnet (useCuda : Bool) :
    Reached (mainnetMachine useCuda) () (mainnetConfig useCuda) mainnetTable (mainnetSession 1)
      [.executionOnly (mainnetBatch 0)] := by
  refine ⟨configFromSource_mainnet useCuda, rfl, ?_⟩
  obtain ⟨started, hstart, hbatch⟩ := startBatch_mainnet useCuda
    (sessionOutDir (mainnetMachine useCuda) (mainnetConfig useCuda)) (show 0 < 2 by decide)
  have hlow : ¬ 0 < started.batch.currentState.height := by
    rw [hbatch]
    show ¬ 0 < UInt32.ofNat 0
    decide
  have hrun : ∀ prepared, getPreparedProver (mainnetMachine useCuda)
      (mainnetConfig useCuda).proverBackend none = .ok prepared →
        RunsGuest .reference prepared.prover.execute := by
    intro prepared hprepared
    rw [getPreparedProver_mainnet] at hprepared
    rw [← Except.ok.inj hprepared]
    exact guestExecute_runsGuest
  have hfinish := finishBatch_executeOnly Sha256Syscalls.reference_fips (mainnet_fips useCuda)
    (mainnet_mockExecute useCuda) hrun rfl hstart (fun h => absurd h hlow)
  have hbatchRun : runSingleBatch (mainnetMachine useCuda) ((mainnetSession 0).batchConfig
      (mainnetConfig useCuda) (sessionOutDir (mainnetMachine useCuda) (mainnetConfig useCuda)))
      mainnetTable () = .ok (.executionOnly (mainnetBatch 0), ()) := by
    rw [runSingleBatch, generateAndSaveProofs_eq, hstart, ← hbatch]
    exact hfinish
  have hlt : (SessionState.start (mainnetConfig useCuda) ()).batchCount <
      (mainnetConfig useCuda).batchCount := by
    show (0 : UInt32) < 2
    decide
  have hturn := Session.turn .start hlt rfl hbatchRun
  have hnext : (SessionState.start (mainnetConfig useCuda) ()).next (mainnetConfig useCuda)
      (ProofArtifacts.executionOnly (mainnetBatch 0)) () = mainnetSession 1 := rfl
  rw [hnext] at hturn
  exact hturn

/-- A proof that ends at block 1. -/
def mainnetProof : ProofWithPublicValues Unit :=
  ⟨.compressed (), (endedIn (mainnetState 1) exampleKey).toBytes⟩

/-- A GPU session that is given that proof to continue from. -/
def resumedMachine : Machine Unit Unit Unit :=
  { mainnetMachine true with
    env := fun name =>
      if name = ENV_ZKPOW_PREV_PROOF then .ok "proof.bin" else mainnetEnv true name
    fs := { (mainnetMachine true).fs with load := fun _ _ => .ok mainnetProof } }

def resumedConfig : ProofGenerationConfig :=
  { mainnetConfig true with prevProofPath := some "proof.bin" }

/-- Its first batch starts at the tip of the proof. -/
theorem resumedBatch_spec : ({ mainnetBatch 1 with previousProof := some mainnetProof } :
    PreparedBatch Unit).Spec .reference (resumedMachine.fs.load ()) mainnetTable GENESIS_HASH
      (some "proof.bin") none 1 :=
  { (mainnetBatch_spec (show 1 < 2 by decide) rfl : (mainnetBatch 1).Spec .reference
      (resumedMachine.fs.load ()) mainnetTable GENESIS_HASH none (some 1) 1) with
    previousProof := rfl
    currentState := by
      have hclaim : previousClaim mainnetProof = .ok (mainnetState 1).publicClaim := by
        unfold previousClaim mainnetProof
        simp only [endedIn, HeaderChainPublicValues.parse_success]
      show resumeFromProof .reference mainnetTable GENESIS_HASH mainnetProof = .ok (mainnetState 1)
      have hgenesis : (mainnetState 1).publicClaim.genesisHash = GENESIS_HASH := rfl
      refine bind_ok.2 ⟨_, mapError_ok.2 hclaim, ?_⟩
      rw [if_neg (not_not.2 hgenesis)]
      refine bind_ok.2 ⟨_, mapError_ok.2 (stateFromDb_mainnet (show 1 < 2 by decide)), ?_⟩
      rw [if_neg (not_not.2 rfl)]
      rfl }

/-- The second batch on the mock backend is one the guest can accept, and so is the first on the
GPU that continues a proof. -/
theorem startedBatch_accepted_mainnet :
    (∃ started, startBatch (mainnetMachine false) ((mainnetSession 1).batchConfig
        (mainnetConfig false) (sessionOutDir (mainnetMachine false) (mainnetConfig false)))
        mainnetTable () = .ok started ∧ started.input.Accepted (mainnetState 1)) ∧
    ∃ started, startBatch resumedMachine ((SessionState.start resumedConfig ()).batchConfig
        resumedConfig (sessionOutDir resumedMachine resumedConfig)) mainnetTable () =
          .ok started ∧ started.batch.previousProof = some mainnetProof ∧
      started.input.Accepted (mainnetState 1) := by
  have hpositive : 0 < (mainnetState 1).height := by
    show 0 < UInt32.ofNat 1
    decide
  constructor
  · obtain ⟨started, hstart, hbatch⟩ := startBatch_mainnet false
      (sessionOutDir (mainnetMachine false) (mainnetConfig false)) (show 1 < 2 by decide)
    have hstate : started.batch.currentState = mainnetState 1 := by rw [hbatch]; rfl
    have haccepted := (startedBatch_accepted (mainnet_fips false) (reached_mainnet false)
      hstart (hstate ▸ hpositive) fun prevProof prover hprev => by
        rw [hbatch] at hprev
        cases hprev).1 (.inr rfl)
    exact ⟨started, hstart, hstate ▸ haccepted⟩
  · have hprepared : getPreparedProver resumedMachine resumedConfig.proverBackend
        resumedConfig.cudaDeviceId = .ok ⟨.cuda, mainnetProver⟩ :=
      getPreparedProver_ok (fun _ => rfl) rfl
    obtain ⟨started, hstart, hbatch⟩ : ∃ started, startBatch resumedMachine
        ((SessionState.start resumedConfig ()).batchConfig resumedConfig
          (sessionOutDir resumedMachine resumedConfig)) mainnetTable () = .ok started ∧
        started.batch = { mainnetBatch 1 with previousProof := some mainnetProof } :=
      exists_startBatch hprepared (configuredBatch_ok.2 resumedBatch_spec) fun prevProof hprev => by
        cases hprev
        exact ⟨(), _, _, _, rfl⟩
    have hstate : started.batch.currentState = mainnetState 1 := congrArg (·.currentState) hbatch
    have hproof : started.batch.previousProof = some mainnetProof :=
      congrArg (·.previousProof) hbatch
    have hreached : Reached resumedMachine () resumedConfig mainnetTable
        (SessionState.start resumedConfig ()) [] := ⟨by decide +kernel, rfl, .start⟩
    have hfips : resumedMachine.lib.Fips := HashLibrary.reference_fips
    have haccepted := (startedBatch_accepted hfips hreached hstart (hstate ▸ hpositive)
      fun prevProof prover hprev _ => by
        rw [hproof] at hprev
        cases hprev
        rw [hstate]
        rfl).1 (.inl rfl)
    exact ⟨started, hstart, hproof, hstate ▸ haccepted⟩

theorem mainnet_digest_ne_zero :
    Sha256.hash (endedIn (mainnetState 1) exampleKey).toBytes ≠ Vector.replicate 32 0 := by
  decide +kernel

/-- **On the GPU the second batch is not.**  It resumes from a trusted height and has no previous
proof; the guest panics on the default proof record. -/
theorem startedBatch_rejected_mainnet : ∃ started guestInput,
    Reached (mainnetMachine true) () (mainnetConfig true) mainnetTable (mainnetSession 1)
      [.executionOnly (mainnetBatch 0)] ∧
    startBatch (mainnetMachine true) ((mainnetSession 1).batchConfig (mainnetConfig true)
      (sessionOutDir (mainnetMachine true) (mainnetConfig true))) mainnetTable () =
        .ok started ∧
    0 < started.batch.currentState.height ∧ started.batch.previousProof = none ∧
    ¬ started.input.Accepted started.batch.currentState ∧
    started.input.stdin.Delivers guestInput ∧
    guestMain .reference (fun _ _ => true) guestInput = .error .publicValuesDigestMismatch := by
  obtain ⟨started, hstart, hbatch⟩ := startBatch_mainnet true
    (sessionOutDir (mainnetMachine true) (mainnetConfig true)) (show 1 < 2 by decide)
  have hstate : started.batch.currentState = mainnetState 1 := by rw [hbatch]; rfl
  have hprevious : started.batch.previousProof = none := by rw [hbatch]; rfl
  have hheight : 0 < started.batch.currentState.height := by
    rw [hstate]
    show 0 < UInt32.ofNat 1
    decide
  obtain ⟨-, hpath⟩ := startBatch_cases hstart
  rcases hpath with ⟨hwithout, -⟩ | ⟨-, prepared, -, -, hinput⟩
  · exact absurd hwithout.2.1 (by decide)
  · obtain ⟨proof, hproof, hfor⟩ := proverInput_for hinput
    have hrecord : Proof.default = proof := by
      rw [hprevious] at hproof
      exact (Prod.mk.inj (Except.ok.inj hproof)).2
    have hrejected : ¬ started.input.Accepted started.batch.currentState := by
      rw [proverInput_accepted_iff hprevious hinput, hfor.pcs, hstate]
      exact mainnet_digest_ne_zero
    refine ⟨started, _, reached_mainnet true, hstart, hheight, hprevious, hrejected, hfor.delivers,
      hfor.rejected Sha256Syscalls.reference_fips ?_ hheight ?_ hrejected hfor.delivers⟩
    · rw [hbatch]
      rfl
    · rw [← hrecord]
      rfl

end Mainnet

end Zkpow.Host
