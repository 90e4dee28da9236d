import Mathlib.Algebra.Order.Floor.Div
import Zkpow.Session
import Zkpow.ChainTable

/-!
# A session covers the chain

On a database that holds a valid chain, with an SDK that executes and proves valid inputs and a
file system that gives back what was saved, each batch starts where the one before it ended, and
the session stops when the headers or the batches run out (`run_batch_session` of
`crates/host/src/pipeline/mod.rs`).

* `ResumesAt` — the three ways a batch finds the block it continues from;
* `runSingleBatch_next`, `runSingleBatch_exhausted` — one batch;
* `runBatchSession_covers` — the heights of the batches, and how many there are.
-/

set_option autoImplicit false

namespace Zkpow.Host

open ByteCodec ExceptFold KeyedTable

variable {Files Inner Vk : Type}

/-! ## A machine that works -/

/-- A proof for the key and the digest the guest asks about is among the inputs, and verifies. -/
def Prover.Attests (prover : Prover Inner Vk) (hashU32 : Vk → VerifierKeyDigest)
    (stdin : Stdin Inner Vk) (vk : VerifierKeyDigest) (digest : Bytes32) : Prop :=
  ∃ inner publicValues, (inner, prover.verifyingKey) ∈ stdin.proofs ∧
    hashU32 prover.verifyingKey = vk ∧ Sha256.hash publicValues = digest ∧
    prover.verify ⟨.compressed inner, publicValues⟩ = .ok ()

/-- Execution and proving succeed on the inputs on which the guest returns; for a proof, the guest
may only rely on proofs that are attached. -/
structure Prover.Works (prover : Prover Inner Vk) (sys : Sha256Syscalls)
    (hashU32 : Vk → VerifierKeyDigest) : Prop where
  execute : RunsGuest sys prover.execute
  prove : ∀ stdin input out verify, stdin.Delivers input →
    (∀ vk digest, verify vk digest = true → prover.Attests hashU32 stdin vk digest) →
    guestMain sys verify input = .ok out →
    ∃ inner, prover.proveCompressed stdin = .ok ⟨.compressed inner, out⟩ ∧
      prover.verify ⟨.compressed inner, out⟩ = .ok ()

/-- The files a session writes. -/
def IsBatchFile (outDir path : PathBuf) : Prop :=
  ∃ first last : UInt32,
    path = PathBuf.join outDir s!"proof_height_{first}_to_{last}.bin" ∨
    path = PathBuf.join outDir s!"proof_height_{first}_to_{last}_groth16.bin"

/-- A proof that was saved is loaded, until its file is written again. -/
structure FileSystem.Keeps (fs : FileSystem Files Inner) (outDir : PathBuf) : Prop where
  createDirAll : ∀ files, ∃ files', fs.createDirAll outDir files = .ok files' ∧
    ∀ path proof, fs.load files path = .ok proof → fs.load files' path = .ok proof
  save : ∀ files path proof, IsBatchFile outDir path →
    ∃ files', fs.save path proof files = .ok files' ∧ fs.load files' path = .ok proof ∧
      ∀ other otherProof, IsBatchFile outDir other → other ≠ path →
        fs.load files other = .ok otherProof → fs.load files' other = .ok otherProof

/-- The hashes are SHA-256, execution and proving succeed on valid inputs, and files are kept. -/
structure Machine.Works (host : Machine Files Inner Vk) (sys : Sha256Syscalls)
    (config : ProofGenerationConfig) (outDir : PathBuf) (prover : Prover Inner Vk) : Prop where
  guestFips : sys.Fips
  hostFips : host.lib.Fips
  setup : host.sdk.setup config.proverBackend config.cudaDeviceId = .ok prover
  mockExecute : RunsGuest sys host.sdk.mockExecute
  proves : prover.Works sys host.sdk.hashU32
  groth16 : ∀ proof, prover.verify proof = .ok () →
    ∃ groth16Proof, host.sdk.generateGroth16Proof proof prover.verifyingKey = .ok groth16Proof
  files : host.fs.Keeps outDir

theorem join_ne {base a b : PathBuf} (h : a ≠ b) : PathBuf.join base a ≠ PathBuf.join base b := by
  unfold PathBuf.join
  split
  · exact fun heq => h (String.append_right_inj base |>.1 heq)
  · exact fun heq => h (String.append_right_inj (base ++ "/") |>.1 heq)

theorem groth16Path_ne_compressedPath (config : ProofGenerationConfig)
    (batch : PreparedBatch Inner) : groth16Path config batch ≠ compressedPath config batch := by
  refine join_ne fun heq => ?_
  simp only [toString, String.append_assoc] at heq
  simp at heq

/-! ## Where a batch starts -/

/-- How a batch finds the block it continues from: no resume point is genesis, a trusted height is
the block of that height, and a proof is that of a run that ended in the state the database has
for the block. -/
inductive ResumesAt (host : Machine Files Inner Vk) (prover : Prover Inner Vk) (db : Table)
    (files : Files) : Option PathBuf → Option UInt32 → Nat → Prop
  | genesis : ResumesAt host prover db files none none 0
  | height (k : Nat) : ResumesAt host prover db files none (some (UInt32.ofNat k)) k
  | proof {path : PathBuf} {inner : Inner} {state : State} {k : Nat} :
      stateFromDbAtHeight (hashHeader host.lib) db (UInt32.ofNat k) GENESIS_HASH = .ok state →
      host.fs.load files path = .ok ⟨.compressed inner,
        (endedIn state (host.sdk.hashU32 prover.verifyingKey)).toBytes⟩ →
      prover.verify ⟨.compressed inner,
        (endedIn state (host.sdk.hashU32 prover.verifyingKey)).toBytes⟩ = .ok () →
      ResumesAt host prover db files (some path) none k

theorem ResumesAt.mono {host : Machine Files Inner Vk} {prover : Prover Inner Vk} {db : Table}
    {files files' : Files} {prevProofPath : Option PathBuf} {trustedStartHeight : Option UInt32}
    {k : Nat} (h : ResumesAt host prover db files prevProofPath trustedStartHeight k)
    (hkeep : ∀ path proof, host.fs.load files path = .ok proof →
      host.fs.load files' path = .ok proof) :
    ResumesAt host prover db files' prevProofPath trustedStartHeight k := by
  cases h with
  | genesis => exact .genesis
  | height => exact .height k
  | proof hstate hload hverify => exact .proof hstate (hkeep _ _ hload) hverify

/-- The previous proof of a batch that continues from a state. -/
def Continues (host : Machine Files Inner Vk) (prover : Prover Inner Vk) (state : State)
    (prevProof : ProofWithPublicValues Inner) : Prop :=
  ∃ inner, prevProof = ⟨.compressed inner,
    (endedIn state (host.sdk.hashU32 prover.verifyingKey)).toBytes⟩ ∧
    prover.verify prevProof = .ok ()

/-- The previous proof of a batch, if it has one, ended where the batch starts. -/
def PreparedBatch.Continues (batch : PreparedBatch Inner) (host : Machine Files Inner Vk)
    (prover : Prover Inner Vk) : Prop :=
  ∀ prevProof, batch.previousProof = some prevProof →
    Host.Continues host prover batch.currentState prevProof

section Batch

variable {host : Machine Files Inner Vk} {prover : Prover Inner Vk} {db : Table} {files : Files}
  {config : ProofGenerationConfig} {row : Nat → Row} {c : Chain} {genesis : HeaderRecord}
  {work : Nat → ChainWork} {g : State} {k : Nat}

/-- The batch of the next headers of a chain. -/
def chainBatch (lib : HashLibrary) (c : Chain) (g : State) (k count : Nat)
    (previousProof : Option (ProofWithPublicValues Inner)) : PreparedBatch Inner where
  previousProof := previousProof
  currentState := c.stateAt (hashHeader lib) g k
  headers := HoldsChain.batchHeaders c k count
  medianHints := HoldsChain.batchMedians c k count
  expectedState := c.stateAt (hashHeader lib) g (k + min count (c.headers.length - k))
  expectedContinuationDigest := continuationDigestFromState lib
    (c.stateAt (hashHeader lib) g (k + min count (c.headers.length - k)))
  firstNewHeight := UInt32.ofNat (k + 1)
  endHeight := UInt32.ofNat (k + min count (c.headers.length - k))

section Prepare

variable (h : HoldsChain (hashHeader host.lib) db row c genesis work)
  (hgenesis : c.genesisHash = GENESIS_HASH)
  (hg : genesisStateFromRecord (hashHeader host.lib) genesis c.genesisHash = .ok g)

include h hgenesis hg

/-- The state a batch resumes from is the state after the block. -/
theorem ResumesAt.exists_previous
    (hresumes : ResumesAt host prover db files config.prevProofPath config.trustedStartHeight k)
    (hk : k ≤ c.headers.length) (hbound : k < 2 ^ 32) :
    ∃ previousProof, loadOptionalProof (host.fs.load files) config.prevProofPath =
        .ok previousProof ∧
      resolveCurrentState host.lib db GENESIS_HASH config.trustedStartHeight previousProof =
        .ok (c.stateAt (hashHeader host.lib) g k) ∧
      ∀ prevProof, previousProof = some prevProof →
        Continues host prover (c.stateAt (hashHeader host.lib) g k) prevProof := by
  have hdb := h.stateFromDbAtHeight hg hk hbound
  rw [hgenesis] at hdb
  generalize hpath : config.prevProofPath = prevProofPath at hresumes
  generalize config.trustedStartHeight = trustedStartHeight at hresumes
  cases hresumes with
  | genesis => exact ⟨none, rfl, mapError_ok.2 hdb, fun _ h => nomatch h⟩
  | height => exact ⟨none, rfl, mapError_ok.2 hdb, fun _ h => nomatch h⟩
  | @proof path inner state _ hstate hload hverify =>
    rw [hdb] at hstate
    rw [← Except.ok.inj hstate] at hload hverify
    refine ⟨some ⟨.compressed inner, _⟩, ?_, ?_, fun prevProof hprev =>
      ⟨inner, (Option.some.inj hprev).symm, Option.some.inj hprev ▸ hverify⟩⟩
    · rw [loadOptionalProof, hload]
      rfl
    · have hclaim := h.stateAt_claim hg hk hbound
      unfold resolveCurrentState resumeFromProof previousClaim
      simp only
      rw [endedIn, HeaderChainPublicValues.parse_success]
      refine bind_ok.2 ⟨_, rfl, ?_⟩
      rw [if_neg (by rw [hclaim, hgenesis]; exact not_not.2 rfl)]
      refine bind_ok.2 ⟨_, mapError_ok.2 ?_, if_neg (not_not.2 rfl)⟩
      rw [show (c.stateAt (hashHeader host.lib) g k).publicClaim.height = UInt32.ofNat k from
        h.stateAt_height hg hk hbound]
      exact hdb

/-- The batch that is prepared is that of the next headers. -/
theorem ResumesAt.configuredBatch
    (hresumes : ResumesAt host prover db files config.prevProofPath config.trustedStartHeight k)
    (hk : k < c.headers.length) (hcount : 0 < config.numHeaders.toNat)
    (hbound : k + min config.numHeaders.toNat (c.headers.length - k) < 2 ^ 32) :
    ∃ previousProof, Host.configuredBatch host config db files =
        .ok (chainBatch host.lib c g k config.numHeaders.toNat previousProof) ∧
      (chainBatch host.lib c g k config.numHeaders.toNat previousProof).Continues host prover := by
  obtain ⟨previousProof, hprevious, hcurrent, hcontinues⟩ :=
    hresumes.exists_previous h hgenesis hg hk.le (by omega)
  refine ⟨previousProof, configuredBatch_ok.2 ?_, hcontinues⟩
  have hnext : k + 1 < 2 ^ 32 := by omega
  have hfirst : (UInt32.ofNat (k + 1)).toNat = k + 1 := UInt32.toNat_ofNat_of_lt' hnext
  have hend : (UInt32.ofNat (k + min config.numHeaders.toNat (c.headers.length - k))).toNat = _ :=
    UInt32.toNat_ofNat_of_lt' hbound
  have hheight := h.stateAt_height hg hk.le (by omega)
  exact {
    previousProof := hprevious
    currentState := hcurrent
    witness := by
      show loadHeaderBatchWitness db (UInt32.ofNat (k + 1)).toNat _ = _
      rw [hfirst]
      exact h.loadHeaderBatchWitness hk.le _
    headers := List.ne_nil_of_length_pos (by
      show 0 < (HoldsChain.batchHeaders c k config.numHeaders.toNat).length
      rw [HoldsChain.length_batchHeaders]
      omega)
    replay := computeFinalStateWithHints_ok.2 (h.applyHeaders hg hk.le hbound)
    endClaim := by
      rw [← hgenesis]
      show loadPublicClaim db (UInt32.ofNat (k + _)).toNat c.genesisHash = _
      rw [hend]
      exact h.loadPublicClaim hg (by omega) hbound
    digest := rfl
    firstNewHeight := by
      show UInt32.ofNat (k + 1) = (c.stateAt (hashHeader host.lib) g k).height + 1
      rw [hheight, UInt32.ofNat_add]
      rfl
    endHeight := by
      show UInt32.ofNat (k + _) = (c.stateAt (hashHeader host.lib) g k).height +
        UInt32.ofNat (HoldsChain.batchHeaders c k config.numHeaders.toNat).length
      rw [hheight, HoldsChain.length_batchHeaders, UInt32.ofNat_add] }

/-- At the end of the chain, or in batches of no header, none is left. -/
theorem ResumesAt.configuredBatch_exhausted
    (hresumes : ResumesAt host prover db files config.prevProofPath config.trustedStartHeight k)
    (hk : k ≤ c.headers.length) (hbound : k < 2 ^ 32)
    (hexhausted : config.numHeaders.toNat = 0 ∨ k = c.headers.length ∧ k + 1 < 2 ^ 32) :
    ∃ height, Host.configuredBatch host config db files =
      .error (.error (.noHeadersRemaining height)) := by
  obtain ⟨previousProof, hprevious, hcurrent, -⟩ :=
    hresumes.exists_previous h hgenesis hg hk hbound
  unfold Host.configuredBatch
  rw [parseGenesisHash_eq]
  suffices hwitness : loadHeaderBatchWitness db
      ((c.stateAt (hashHeader host.lib) g k).height + 1).toNat config.numHeaders.toNat =
        .ok ⟨[], []⟩ from ⟨_, prepareBatch_noHeaders hprevious hcurrent hwitness rfl⟩
  rcases hexhausted with hzero | ⟨hend, hnext⟩
  · rw [hzero]
    exact loadHeaderBatchWitness_zero db _
  · have hfirst : ((c.stateAt (hashHeader host.lib) g k).height + 1).toNat = k + 1 := by
      rw [h.stateAt_height hg hk hbound, toNat_add_one, UInt32.toNat_ofNat_of_lt' hbound]
      rw [UInt32.toNat_ofNat_of_lt' hbound]
      exact hnext
    have hnil : HoldsChain.batchHeaders c k config.numHeaders.toNat = [] := by
      rw [HoldsChain.batchHeaders, List.drop_eq_nil_of_le hend.ge, List.take_nil]
    have hmedians : HoldsChain.batchMedians c k config.numHeaders.toNat = [] :=
      List.eq_nil_of_length_eq_zero (by rw [HoldsChain.length_batchMedians]; omega)
    rw [hfirst, h.loadHeaderBatchWitness hk, hnil, hmedians]

end Prepare

/-! ## One batch -/

/-- The compressed proof of a batch is kept, with the Groth16 proof or without. -/
theorem saveProofs_keeps (hkeeps : host.fs.Keeps config.outputDir)
    {proof : ProofWithPublicValues Inner}
    (hgroth16 : ∃ groth16Proof,
      host.sdk.generateGroth16Proof proof prover.verifyingKey = .ok groth16Proof)
    (batch : PreparedBatch Inner) :
    ∃ artifacts files', saveProofs host config files prover batch proof =
        .ok (artifacts, files') ∧
      artifacts.compressedPath = some (compressedPath config batch) ∧
      artifacts.firstNewHeight = batch.firstNewHeight ∧
      artifacts.endHeight = batch.endHeight ∧
      host.fs.load files' (compressedPath config batch) = .ok proof := by
  obtain ⟨files₁, hdir, -⟩ := hkeeps.createDirAll files
  have hcompressed : IsBatchFile config.outputDir (compressedPath config batch) :=
    ⟨batch.firstNewHeight, batch.endHeight, .inl rfl⟩
  obtain ⟨files₂, hsave, hload, -⟩ := hkeeps.save files₁ _ proof hcompressed
  unfold saveProofs
  rw [hdir]
  simp only [Except.mapError, bind, Except.bind]
  rw [hsave]
  simp only
  by_cases hmode : config.mode = .proveCompressedAndGroth16
  · obtain ⟨groth16Proof, hproof⟩ := hgroth16
    have hfile : IsBatchFile config.outputDir (groth16Path config batch) :=
      ⟨batch.firstNewHeight, batch.endHeight, .inr rfl⟩
    obtain ⟨files₃, hsave', -, hother⟩ := hkeeps.save files₂ _ groth16Proof hfile
    rw [if_pos hmode, hproof]
    simp only
    rw [hsave']
    exact ⟨_, _, rfl, rfl, rfl, rfl,
      hother _ _ hcompressed (groth16Path_ne_compressedPath config batch).symm hload⟩
  · rw [if_neg hmode]
    exact ⟨_, _, rfl, rfl, rfl, rfl, hload⟩

/-- The inputs of a batch the guest accepts, on proofs that are attached, are proved. -/
theorem Prover.Works.proveInput_ok {sys : Sha256Syscalls} {hashU32 : Vk → VerifierKeyDigest}
    (hprover : prover.Works sys hashU32) {input : ExecutionInput Inner Vk}
    {batch : PreparedBatch Inner} {verifierKey : VerifierKeyDigest} {proof : Proof}
    (hfor : input.For batch verifierKey proof) {verify : Sp1Verifier}
    (hverify : ∀ vk digest, verify vk digest = true →
      prover.Attests hashU32 input.stdin vk digest)
    (hguest : guestMain sys verify (input.atZero batch) = .ok input.expectedPv) :
    ∃ inner, proveInput prover input = .ok ⟨.compressed inner, input.expectedPv⟩ ∧
      prover.verify ⟨.compressed inner, input.expectedPv⟩ = .ok () := by
  obtain ⟨inner, hprove, hverified⟩ := hprover.prove _ _ _ verify hfor.delivers hverify hguest
  refine ⟨inner, bind_ok.2 ⟨_, mapError_ok.2 hprove, bind_ok.2 ⟨(), ?_, bind_ok.2 ⟨(), ?_, rfl⟩⟩⟩,
    hverified⟩
  · exact verifyPublicValues_expected hfor _
  · exact mapError_ok.2 hverified

/-- A trusted height is not combined with a proof. -/
theorem ResumesAt.none_of_trusted {prevProofPath : Option PathBuf}
    {trustedStartHeight : Option UInt32}
    (h : ResumesAt host prover db files prevProofPath trustedStartHeight k)
    (htrusted : trustedStartHeight.isSome = true) : prevProofPath = none := by
  cases h with
  | genesis => rfl
  | height => rfl
  | proof => cases htrusted

/-- The proof record of a batch that continues a proof is the one the guest expects, and the proof
is attached. -/
theorem proverInput_continues (hlib : host.lib.Fips)
    {batch : PreparedBatch Inner} {input : ExecutionInput Inner Vk}
    {prevProof : ProofWithPublicValues Inner} (hprevious : batch.previousProof = some prevProof)
    (hcontinues : Continues host prover batch.currentState prevProof)
    (hinput : proverInput host.lib host.sdk.hashU32 prover.verifyingKey batch = .ok input) :
    input.Accepted batch.currentState ∧ prover.Attests host.sdk.hashU32 input.stdin
      input.pcs.verifierKey input.pcs.proof.publicValuesDigest := by
  obtain ⟨inner, rfl, hverify⟩ := hcontinues
  have haccepted := proverInput_accepted hlib hprevious rfl hinput
  obtain ⟨proof, -, hfor⟩ := proverInput_for hinput
  have hsuccess : ∀ prevProof, batch.previousProof = some prevProof → ∃ inner c d k,
      prevProof = ⟨.compressed inner, (MinimalPublicValues.success c d k).toBytes⟩ := fun _ h =>
    ⟨inner, _, _, _, Option.some.inj (h.symm.trans hprevious)⟩
  obtain ⟨input', hinput', hmem⟩ :=
    exists_proverInput host.lib host.sdk.hashU32 prover.verifyingKey hsuccess
  obtain rfl : input = input' := Except.ok.inj (hinput.symm.trans hinput')
  refine ⟨haccepted, inner, _, hmem inner _ hprevious, ?_, ?_, hverify⟩
  · rw [hfor.pcs]
  · rw [haccepted.checks.digest, hfor.pcs]
    rfl

/-- Above genesis a batch that needs a prover continues a proof. -/
theorem ResumesAt.started_previous
    (hresumes : ResumesAt host prover db files config.prevProofPath config.trustedStartHeight k)
    (hmock : config.executeOnly = true → config.proverBackend = .mock)
    (htrusted : config.trustedStartHeight.isSome = true → config.executeOnly = true)
    {started : StartedBatch Inner Vk} (hstart : startBatch host config db files = .ok started)
    (hwith : ¬ config.WithoutProof) (hheight : 0 < started.batch.currentState.height) :
    ∃ prevProof, started.batch.previousProof = some prevProof := by
  have hspec := configuredBatch_ok.1 (startBatch_cases hstart).1
  refine Option.isSome_iff_exists.1 ((loadOptionalProof_isSome hspec.previousProof).trans ?_)
  rcases hspec.resumed hheight with hproof | hheight
  · exact hproof
  · have hexec := htrusted hheight
    exact absurd ⟨mode_eq_executeOnly.2 hexec, hmock hexec, hresumes.none_of_trusted hheight⟩ hwith

/-- With no header left a batch ends the session. -/
theorem runSingleBatch_exhausted
    (hresumes : ResumesAt host prover db files config.prevProofPath config.trustedStartHeight k)
    (hfeature : config.proverBackend = .cuda → host.cudaFeature = true)
    (hsetup : host.sdk.setup config.proverBackend config.cudaDeviceId = .ok prover)
    (h : HoldsChain (hashHeader host.lib) db row c genesis work)
    (hgenesis : c.genesisHash = GENESIS_HASH)
    (hg : genesisStateFromRecord (hashHeader host.lib) genesis c.genesisHash = .ok g)
    (hk : k ≤ c.headers.length) (hbound : k < 2 ^ 32)
    (hexhausted : config.numHeaders.toNat = 0 ∨ k = c.headers.length ∧ k + 1 < 2 ^ 32) :
    ∃ height, runSingleBatch host config db files =
      .error (.error (.noHeadersRemaining height)) := by
  obtain ⟨height, hbatch⟩ := hresumes.configuredBatch_exhausted h hgenesis hg hk hbound hexhausted
  refine ⟨height, ?_⟩
  rw [runSingleBatch, generateAndSaveProofs_eq]
  unfold startBatch
  split
  · unfold startWithoutProof
    rw [hbatch]
    rfl
  · rw [getPreparedProver_ok hfeature hsetup]
    show startWithProver host config db files prover >>= _ = _
    unfold startWithProver
    rw [hbatch]
    rfl

section Run

variable {sys : Sha256Syscalls} (hworks : host.Works sys config config.outputDir prover)
  (hfeature : config.proverBackend = .cuda → host.cudaFeature = true)
  (hmock : config.executeOnly = true → config.proverBackend = .mock)
  (htrusted : config.trustedStartHeight.isSome = true → config.executeOnly = true)
  (hresumes : ResumesAt host prover db files config.prevProofPath config.trustedStartHeight k)

include hworks hfeature

/-- A batch that continues its previous proof is started. -/
theorem exists_started {batch : PreparedBatch Inner}
    (hbatch : configuredBatch host config db files = .ok batch)
    (hcontinues : batch.Continues host prover) :
    ∃ started, startBatch host config db files = .ok started ∧ started.batch = batch :=
  exists_startBatch (getPreparedProver_ok hfeature hworks.setup) hbatch fun prevProof hprev => by
    obtain ⟨inner, hproof, -⟩ := hcontinues prevProof hprev
    exact ⟨inner, _, _, _, hproof⟩

/-- The two ways it is started, with the machine's prover. -/
theorem started_cases {started : StartedBatch Inner Vk}
    (hstart : startBatch host config db files = .ok started) :
    (config.WithoutProof ∧ unprovenInput host.lib started.batch = .ok started.input) ∨
      (¬ config.WithoutProof ∧ started.prover = some prover ∧
        proverInput host.lib host.sdk.hashU32 prover.verifyingKey started.batch =
          .ok started.input) := by
  obtain ⟨-, hpath⟩ := startBatch_cases hstart
  rcases hpath with ⟨hwithout, -, hinput⟩ | ⟨hwith, prepared, hprepared, hprover, hinput⟩
  · exact .inl ⟨hwithout, hinput⟩
  · rw [getPreparedProver_ok hfeature hworks.setup] at hprepared
    rw [← Except.ok.inj hprepared] at hprover hinput
    exact .inr ⟨hwith, hprover, hinput⟩

include hmock htrusted hresumes

/-- The guest accepts the inputs of a batch. -/
theorem started_accepted {started : StartedBatch Inner Vk}
    (hstart : startBatch host config db files = .ok started)
    (hcontinues : started.batch.Continues host prover)
    (hheight : 0 < started.batch.currentState.height) :
    started.input.Accepted started.batch.currentState := by
  rcases started_cases hworks hfeature hstart with ⟨-, hinput⟩ | ⟨hwith, -, hinput⟩
  · exact unprovenInput_accepted hworks.hostFips hinput
  · obtain ⟨prevProof, hprevious⟩ :=
      hresumes.started_previous hmock htrusted hstart hwith hheight
    exact (proverInput_continues hworks.hostFips hprevious (hcontinues _ hprevious) hinput).1

/-- A batch that is not only executed is proved, and its proof continues to the end state. -/
theorem finishBatch_proves {started : StartedBatch Inner Vk}
    (hstart : startBatch host config db files = .ok started)
    (hcontinues : started.batch.Continues host prover)
    (hexec : config.executeOnly = false) :
    ∃ artifacts files' path prevProof, finishBatch host config files started =
        .ok (artifacts, files') ∧ artifacts.compressedPath = some path ∧
      artifacts.firstNewHeight = started.batch.firstNewHeight ∧
      artifacts.endHeight = started.batch.endHeight ∧
      host.fs.load files' path = .ok prevProof ∧
      Continues host prover started.batch.expectedState prevProof := by
  classical
  have hmode : config.mode ≠ .executeOnly := fun h => by
    rw [mode_eq_executeOnly.1 h] at hexec
    cases hexec
  rcases started_cases hworks hfeature hstart with ⟨hwithout, -⟩ | ⟨hwith, hprover, hinput⟩
  · exact absurd hwithout.1 hmode
  have hspec := configuredBatch_ok.1 (startBatch_cases hstart).1
  have haccepted := started_accepted hworks hfeature hmock htrusted hresumes hstart hcontinues
  obtain ⟨proof, -, hfor⟩ := proverInput_for hinput
  have hexecute := hworks.proves.execute.expected hworks.guestFips hworks.hostFips hfor
    hspec.replay hspec.digest haccepted
  -- the guest may rely on exactly the proofs that are attached
  have hguest : guestMain sys
      (fun vk digest => decide (prover.Attests host.sdk.hashU32 started.input.stdin vk digest))
      (started.input.atZero started.batch) = .ok started.input.expectedPv := by
    refine hfor.guestMain_expected hworks.guestFips hworks.hostFips hspec.replay hspec.digest
      haccepted fun hheight => ?_
    obtain ⟨prevProof, hprevious⟩ :=
      hresumes.started_previous hmock htrusted hstart hwith hheight
    exact decide_eq_true
      (proverInput_continues hworks.hostFips hprevious (hcontinues _ hprevious) hinput).2
  obtain ⟨inner, hprove, hverified⟩ :=
    hworks.proves.proveInput_ok hfor (fun _ _ h => of_decide_eq_true h) hguest
  obtain ⟨artifacts, files', hsave, hpath, hfirst, hend, hload⟩ := saveProofs_keeps
    hworks.files (hworks.groth16 _ hverified) started.batch
  refine ⟨artifacts, files', _, _, ?_, hpath, hfirst, hend, hload, inner, ?_, hverified⟩
  · unfold finishBatch
    rw [hprover]
    simp only
    rw [executeInput_ok hfor hexecute]
    simp only [Except.mapError, bind, Except.bind]
    rw [if_neg hmode, hprove]
    exact hsave
  · rw [hfor.expectedPv, hspec.digest, continuationDigestFromState_eq hworks.hostFips]
    rfl

/-- **One batch.**  A batch that continues from a block below the last one completes, with the
next headers, and the next one can continue from where it ends. -/
theorem runSingleBatch_next (h : HoldsChain (hashHeader host.lib) db row c genesis work)
    (hgenesis : c.genesisHash = GENESIS_HASH)
    (hg : genesisStateFromRecord (hashHeader host.lib) genesis c.genesisHash = .ok g)
    (hk : k < c.headers.length) (hcount : 0 < config.numHeaders.toNat)
    (hbound : k + min config.numHeaders.toNat (c.headers.length - k) < 2 ^ 32) :
    ∃ artifacts files', runSingleBatch host config db files = .ok (artifacts, files') ∧
      artifacts.firstNewHeight = UInt32.ofNat (k + 1) ∧
      artifacts.endHeight =
        UInt32.ofNat (k + min config.numHeaders.toNat (c.headers.length - k)) ∧
      (config.executeOnly = false → ResumesAt host prover db files' artifacts.compressedPath none
        (k + min config.numHeaders.toNat (c.headers.length - k))) := by
  obtain ⟨previousProof, hbatch, hcontinues⟩ :=
    hresumes.configuredBatch h hgenesis hg hk hcount hbound
  obtain ⟨started, hstart, hstarted⟩ := exists_started hworks hfeature hbatch hcontinues
  rw [runSingleBatch, generateAndSaveProofs_eq, hstart]
  have hcontinues' : started.batch.Continues host prover := hstarted ▸ hcontinues
  cases hexec : config.executeOnly with
  | true =>
    have hfinish := finishBatch_executeOnly hworks.guestFips hworks.hostFips hworks.mockExecute
      (fun prepared hprepared => by
        rw [getPreparedProver_ok hfeature hworks.setup] at hprepared
        rw [← Except.ok.inj hprepared]
        exact hworks.proves.execute) (mode_eq_executeOnly.2 hexec) hstart
      (started_accepted hworks hfeature hmock htrusted hresumes hstart hcontinues')
    rw [hstarted] at hfinish
    exact ⟨_, _, hfinish, rfl, rfl, fun h => absurd h (by decide)⟩
  | false =>
    obtain ⟨artifacts, files', path, prevProof, hfinish, hpath, hfirst, hend, hload, hcont⟩ :=
      finishBatch_proves hworks hfeature hmock htrusted hresumes hstart hcontinues' hexec
    rw [hstarted] at hfirst hend hcont
    refine ⟨artifacts, files', hfinish, hfirst, hend, fun _ => ?_⟩
    obtain ⟨inner, rfl, hverify⟩ := hcont
    rw [hpath]
    refine .proof ?_ hload hverify
    rw [← hgenesis]
    exact h.stateFromDbAtHeight hg (by omega) hbound

end Run

end Batch

/-! ## The session -/

/-- The error of a batch without headers is recognised by its text. -/
theorem isHeaderExhaustionError_noHeadersRemaining (height : UInt32) :
    isHeaderExhaustionError (.noHeadersRemaining height) = true := by
  unfold isHeaderExhaustionError BoxError.display
  rw [String.toList_append, List.isPrefixOf_iff_prefix]
  exact List.prefix_append _ _

/-- How many batches it takes to the last block. -/
theorem lt_batches_iff {T H B M n : Nat} :
    n < (if B = 0 then 0 else min M ((T - H) ⌈/⌉ B)) ↔ n < M ∧ 0 < B ∧ H + n * B < T := by
  split
  · omega
  · rename_i hB
    have hpos : 0 < B := Nat.pos_of_ne_zero hB
    rw [lt_min_iff, ← not_le, ← not_le, ceilDiv_le_iff_le_mul hpos, Nat.mul_comm B n]
    omega

/-- Where the batch after `n` batches ends. -/
theorem end_of_batch {T H B n : Nat} (hlt : H + n * B < T) :
    H + n * B + min B (T - (H + n * B)) = min (H + (n + 1) * B) T := by
  rw [Nat.succ_mul]
  omega

/-- It is within the limit that holds for all batches. -/
theorem end_of_batch_lt {T H B M n limit : Nat} (hn : n < M)
    (hlimit : min (H + M * B) (T + 1) < limit) : min (H + (n + 1) * B) T < limit := by
  have hle : (n + 1) * B ≤ M * B := Nat.mul_le_mul_right B hn
  omega

/-- What holds between the batches of a session that started from block `H`. -/
structure Covered (host : Machine Files Inner Vk) (prover : Prover Inner Vk) (db : Table)
    (config : ProofGenerationConfig) (T H : Nat) (s : SessionState Files)
    (completed : List (ProofArtifacts Inner)) : Prop where
  count : s.batchCount.toNat = completed.length
  resumes : ResumesAt host prover db s.files s.currentPrevProof s.trustedStartHeight
    (min (H + completed.length * config.numHeaders.toNat) T)
  heights : ∀ (k : Nat) (hk : k < completed.length),
    completed[k].firstNewHeight.toNat = H + k * config.numHeaders.toNat + 1 ∧
    completed[k].endHeight.toNat = min (H + (k + 1) * config.numHeaders.toNat) T

theorem Machine.Works.batchConfig {host : Machine Files Inner Vk} {sys : Sha256Syscalls}
    {config : ProofGenerationConfig} {outDir : PathBuf} {prover : Prover Inner Vk}
    (hworks : host.Works sys config outDir prover) (s : SessionState Files) :
    host.Works sys (s.batchConfig config outDir) (s.batchConfig config outDir).outputDir prover :=
  { hworks with }

section Session

variable {sys : Sha256Syscalls} {host : Machine Files Inner Vk} {prover : Prover Inner Vk}
  {db : Table} {config : ProofGenerationConfig} {outDir : PathBuf} {row : Nat → Row} {c : Chain}
  {genesis : HeaderRecord} {work : Nat → ChainWork} {g : State} {H : Nat} {files₀ : Files}
  {s : SessionState Files} {completed : List (ProofArtifacts Inner)}
  (hworks : host.Works sys config outDir prover)
  (hfeature : config.proverBackend = .cuda → host.cudaFeature = true)
  (h : HoldsChain (hashHeader host.lib) db row c genesis work)
  (hgenesis : c.genesisHash = GENESIS_HASH)
  (hg : genesisStateFromRecord (hashHeader host.lib) genesis c.genesisHash = .ok g)
  (hbound : min (H + config.batchCount.toNat * config.numHeaders.toNat) (c.headers.length + 1) <
    2 ^ 32)
  (hmock : config.executeOnly = true → config.proverBackend = .mock)
  (hH : H ≤ c.headers.length)

include hworks

/-- The directory is created, and the batch resumes where the session stands. -/
theorem Covered.createDirAll (hc : Covered host prover db config c.headers.length H s completed) :
    ∃ files, host.fs.createDirAll outDir s.files = .ok files ∧
      ResumesAt host prover db files s.currentPrevProof s.trustedStartHeight
        (min (H + completed.length * config.numHeaders.toNat) c.headers.length) := by
  obtain ⟨files, hdir, hkeep⟩ := hworks.files.createDirAll s.files
  exact ⟨files, hdir, hc.resumes.mono hkeep⟩

include hfeature h hgenesis hg hbound

/-- Without headers left the next batch ends the session. -/
theorem Covered.exhausted (hc : Covered host prover db config c.headers.length H s completed)
    (hcount : completed.length < config.batchCount.toNat)
    (hleft : ¬ (0 < config.numHeaders.toNat ∧
      H + completed.length * config.numHeaders.toNat < c.headers.length)) :
    ∃ files height, host.fs.createDirAll outDir s.files = .ok files ∧
      runSingleBatch host (s.batchConfig config outDir) db files =
        .error (.error (.noHeadersRemaining height)) := by
  obtain ⟨files, hdir, hresumes⟩ := hc.createDirAll hworks
  have hle : (completed.length + 1) * config.numHeaders.toNat ≤
      config.batchCount.toNat * config.numHeaders.toNat := Nat.mul_le_mul_right _ hcount
  have hstep : (completed.length + 1) * config.numHeaders.toNat =
      completed.length * config.numHeaders.toNat + config.numHeaders.toNat := Nat.succ_mul _ _
  refine ⟨files, ?_⟩
  have hexhausted : config.numHeaders.toNat = 0 ∨
      min (H + completed.length * config.numHeaders.toNat) c.headers.length =
          c.headers.length ∧
        min (H + completed.length * config.numHeaders.toNat) c.headers.length + 1 < 2 ^ 32 := by
    rcases Nat.eq_zero_or_pos config.numHeaders.toNat with hzero | hpos
    · exact .inl hzero
    · exact .inr (by omega)
  obtain ⟨height, hrun⟩ : ∃ height, runSingleBatch host (s.batchConfig config outDir) db files =
      .error (.error (.noHeadersRemaining height)) :=
    runSingleBatch_exhausted hresumes hfeature hworks.setup h hgenesis hg
      (Nat.min_le_right _ _) (by omega) hexhausted
  exact ⟨height, hdir, hrun⟩

/-- The loop ends, without error, when no batch is left. -/
theorem Covered.runBatches_eq (hc : Covered host prover db config c.headers.length H s completed)
    (hdone : ¬ completed.length < (if config.numHeaders.toNat = 0 then 0 else
      min config.batchCount.toNat ((c.headers.length - H) ⌈/⌉ config.numHeaders.toNat))) :
    runBatches host config db outDir s = .ok s.batchCount := by
  rw [runBatches]
  split
  · rename_i hlt
    rw [UInt32.lt_iff_toNat_lt, hc.count] at hlt
    obtain ⟨files, height, hdir, hrun⟩ :=
      hc.exhausted hworks hfeature h hgenesis hg hbound hlt
        fun hleft => hdone (lt_batches_iff.2 ⟨hlt, hleft⟩)
    rw [hdir]
    simp only
    rw [hrun]
    simp only
    rw [if_pos (isHeaderExhaustionError_noHeadersRemaining height), UInt32.add_sub_cancel]
  · rfl

include hmock

/-- **The step of a session** that has headers left. -/
theorem Covered.next (hs : Session host config db outDir files₀ s completed)
    (hc : Covered host prover db config c.headers.length H s completed)
    (hleft : completed.length < config.batchCount.toNat ∧ 0 < config.numHeaders.toNat ∧
      H + completed.length * config.numHeaders.toNat < c.headers.length) :
    ∃ files artifacts files', host.fs.createDirAll outDir s.files = .ok files ∧
      runSingleBatch host (s.batchConfig config outDir) db files = .ok (artifacts, files') ∧
      Covered host prover db config c.headers.length H (s.next config artifacts files')
        (completed ++ [artifacts]) := by
  obtain ⟨hcount, hpos, hlt⟩ := hleft
  obtain ⟨files, hdir, hresumes⟩ := hc.createDirAll hworks
  have hend := end_of_batch hlt
  have hfits := end_of_batch_lt hcount hbound
  have hfits' : H + completed.length * config.numHeaders.toNat + 1 < 2 ^ 32 := by omega
  have hnum : (s.batchConfig config outDir).numHeaders = config.numHeaders := rfl
  rw [Nat.min_eq_left hlt.le] at hresumes
  obtain ⟨artifacts, files', hrun, hfirst, hlast, hnext⟩ := runSingleBatch_next
    (hworks.batchConfig s) hfeature hmock (fun ht => (hs.trusted ht).1) hresumes h hgenesis hg hlt
    hpos (by rw [hnum, hend]; exact hfits)
  rw [hnum, hend] at hlast hnext
  refine ⟨files, artifacts, files', hdir, hrun, ?_, ?_, ?_⟩
  · have hone := config.batchCount.toNat_lt
    rw [SessionState.next_batchCount, toNat_add_one (by rw [hc.count]; omega), hc.count,
      List.length_append, List.length_singleton]
  · rw [List.length_append, List.length_singleton]
    unfold SessionState.next
    cases hexec : config.executeOnly with
    | true =>
      rw [if_pos rfl, hlast]
      exact .height _
    | false =>
      rw [if_neg (by decide)]
      exact hnext hexec
  · intro k hk
    rcases Nat.lt_or_ge k completed.length with hk' | hk'
    · rw [List.getElem_append_left hk']
      exact hc.heights k hk'
    · obtain rfl : k = completed.length := by
        rw [List.length_append, List.length_singleton] at hk
        omega
      rw [List.getElem_concat_length rfl, hfirst, hlast, UInt32.toNat_ofNat_of_lt' hfits,
        UInt32.toNat_ofNat_of_lt' hfits']
      exact ⟨rfl, rfl⟩

include hH

/-- **The invariant of a session**, which completes no more batches than there are. -/
theorem Session.covered (hs : Session host config db outDir files₀ s completed)
    (hstart : ResumesAt host prover db files₀ config.prevProofPath none H) :
    Covered host prover db config c.headers.length H s completed ∧
      completed.length ≤ (if config.numHeaders.toNat = 0 then 0 else
        min config.batchCount.toNat ((c.headers.length - H) ⌈/⌉ config.numHeaders.toNat)) := by
  induction hs with
  | start =>
    refine ⟨⟨rfl, ?_, fun k hk => nomatch hk⟩, Nat.zero_le _⟩
    rw [List.length_nil, Nat.zero_mul, Nat.add_zero, Nat.min_eq_left hH]
    exact hstart
  | @turn s completed files files' artifacts hs hlt hdir hrun ih =>
    obtain ⟨hc, -⟩ := ih
    have hcount : completed.length < config.batchCount.toNat := by
      rw [← hc.count]
      exact hlt
    by_cases hleft : 0 < config.numHeaders.toNat ∧
        H + completed.length * config.numHeaders.toNat < c.headers.length
    · obtain ⟨files₁, artifacts₁, files₂, hdir₁, hrun₁, hc'⟩ :=
        hc.next hworks hfeature h hgenesis hg hbound hmock hs ⟨hcount, hleft⟩
      rw [hdir] at hdir₁
      rw [← Except.ok.inj hdir₁, hrun] at hrun₁
      obtain ⟨rfl, rfl⟩ := Prod.mk.inj (Except.ok.inj hrun₁)
      refine ⟨hc', ?_⟩
      rw [List.length_append, List.length_singleton]
      exact lt_batches_iff.2 ⟨hcount, hleft⟩
    · obtain ⟨files₁, height, hdir₁, hrun₁⟩ :=
        hc.exhausted hworks hfeature h hgenesis hg hbound hcount hleft
      rw [hdir] at hdir₁
      rw [← Except.ok.inj hdir₁, hrun] at hrun₁
      cases hrun₁

/-- Every batch there are headers for is reached. -/
theorem exists_session (hstart : ResumesAt host prover db files₀ config.prevProofPath none H)
    {n : Nat} (hn : n ≤ (if config.numHeaders.toNat = 0 then 0 else
      min config.batchCount.toNat ((c.headers.length - H) ⌈/⌉ config.numHeaders.toNat))) :
    ∃ s completed, Session host config db outDir files₀ s completed ∧ completed.length = n := by
  induction n with
  | zero => exact ⟨_, _, .start, rfl⟩
  | succ n ih =>
    obtain ⟨s, completed, hs, rfl⟩ := ih (Nat.le_of_succ_le hn)
    obtain ⟨hc, -⟩ :=
      hs.covered hworks hfeature h hgenesis hg hbound hmock hH hstart
    have hleft := lt_batches_iff.1 hn
    have hlt : s.batchCount < config.batchCount := by
      rw [UInt32.lt_iff_toNat_lt, hc.count]
      exact hleft.1
    obtain ⟨files, artifacts, files', hdir, hrun, -⟩ :=
      hc.next hworks hfeature h hgenesis hg hbound hmock hs hleft
    exact ⟨_, _, .turn hs hlt hdir hrun, by rw [List.length_append, List.length_singleton]⟩

end Session

/-- **A session covers the chain.**  On a working machine and a database that holds a valid chain,
from genesis or from a proof that ended at block `H`, the batches of every state reached follow
each other from block `H` on, without gap or repetition, and the session returns how many it took
to the last block, or the limit.  The heights it looks at fit in 32 bits. -/
theorem runBatchSession_covers {sys : Sha256Syscalls} {host : Machine Files Inner Vk}
    {files₀ : Files} {config : ProofGenerationConfig} {db : Table} {prover : Prover Inner Vk}
    {row : Nat → Row} {c : Chain} {genesis : HeaderRecord} {work : Nat → ChainWork} {H : Nat}
    (hconfig : configFromSource host.cudaFeature host.dbPathDefault host.env = .ok config)
    (hconnect : host.connect config.dbPath = .ok db)
    (hworks : host.Works sys config (sessionOutDir host config) prover)
    (hmock : config.executeOnly = true → config.proverBackend = .mock)
    (hchain : HoldsChain (hashHeader host.lib) db row c genesis work)
    (hgenesis : c.genesisHash = GENESIS_HASH)
    (hstart : ResumesAt host prover db files₀ config.prevProofPath none H)
    (hH : H ≤ c.headers.length)
    (hbound : min (H + config.batchCount.toNat * config.numHeaders.toNat)
      (c.headers.length + 1) < 2 ^ 32) :
    (∀ s completed, Reached host files₀ config db s completed →
      (completed.length ≤ if config.numHeaders.toNat = 0 then 0 else
        min config.batchCount.toNat ((c.headers.length - H) ⌈/⌉ config.numHeaders.toNat)) ∧
      ∀ (k : Nat) (hk : k < completed.length),
        completed[k].firstNewHeight.toNat = H + k * config.numHeaders.toNat + 1 ∧
        completed[k].endHeight.toNat =
          min (H + (k + 1) * config.numHeaders.toNat) c.headers.length) ∧
    ∃ s completed, Reached host files₀ config db s completed ∧
      runBatchSession host files₀ = .ok s.batchCount ∧
      s.batchCount.toNat = completed.length ∧
      completed.length = if config.numHeaders.toNat = 0 then 0 else
        min config.batchCount.toNat ((c.headers.length - H) ⌈/⌉ config.numHeaders.toNat) := by
  obtain ⟨g, hg⟩ := hchain.exists_genesis
  have hfeature := configFromSource_cuda hconfig
  have hcovered := fun s completed
      (hs : Session host config db (sessionOutDir host config) files₀ s completed) =>
    hs.covered hworks hfeature hchain hgenesis hg hbound hmock hH hstart
  refine ⟨fun s completed hs => ?_, ?_⟩
  · obtain ⟨hc, hle⟩ := hcovered s completed hs.session
    exact ⟨hle, hc.heights⟩
  obtain ⟨s, completed, hs, hlen⟩ :=
    exists_session hworks hfeature hchain hgenesis hg hbound hmock hH hstart (Nat.le_refl _)
  have hreached : Reached host files₀ config db s completed := ⟨hconfig, hconnect, hs⟩
  obtain ⟨hc, -⟩ := hcovered s completed hs
  refine ⟨s, completed, hreached, ?_, hc.count, hlen⟩
  rw [hreached.runBatchSession_eq]
  exact hc.runBatches_eq hworks hfeature hchain hgenesis hg hbound hlen.ge.not_gt

/-! ## Three blocks of the main chain -/

section Mainnet

def mainnetChain : Chain :=
  ⟨GENESIS_HASH, 1231006505, [.fromHeader (mainnetHeader 1), .fromHeader (mainnetHeader 2)]⟩

theorem mainnet_holdsChain : HoldsChain (hashHeader .reference) mainnetTable mainnetRow mainnetChain
    ⟨0, mainnetHeader 0, mainnetWork 0, mainnetMedian 0⟩ mainnetWork := by
  rw [← mainnetHashHeader_eq]
  exact {
    onePer := mainnetTable_onePer
    top := by decide +kernel
    genesisRow := by decide +kernel
    genesisBits := rfl
    genesisHash := by decide +kernel
    genesisTimestamp := rfl
    genesisWork := rfl
    header := fun k hk => by
      have hk' : k < 2 := hk
      interval_cases k <;> decide +kernel +revert
    blockHash := fun k hk => by
      have hk' : k ≤ 2 := hk
      interval_cases k <;> decide +kernel
    accumulated := fun k hk => by
      have hk' : k ≤ 2 := hk
      interval_cases k <;> decide +kernel
    valid := fun k h1 hk => by
      have hk' : k ≤ 2 := hk
      interval_cases k <;> exact ⟨by decide +kernel, by decide +kernel⟩ }

/-- Batches of one header that are proved on the CPU. -/
def provingEnv : EnvSource := fun name =>
  if name = ENV_ZKPOW_BATCH_SIZE then .ok "1" else .error .notPresent

def provingConfig : ProofGenerationConfig :=
  ⟨none, none, 1, 500, "headers.db", ".", false, false, .cpu, none⟩

/-- Files as a list, the newest first. -/
def listFiles : FileSystem (List (PathBuf × ProofWithPublicValues Unit)) Unit where
  createDirAll _ files := .ok files
  load files path := match files.lookup path with
    | some proof => .ok proof
    | none => .error "No such file or directory"
  save path proof files := .ok ((path, proof) :: files)

def provingMachine : Machine (List (PathBuf × ProofWithPublicValues Unit)) Unit Unit where
  env := provingEnv
  cudaFeature := false
  dbPathDefault := "headers.db"
  sessionTimestamp := "0"
  connect _ := .ok mainnetTable
  lib := .reference
  sdk := {
    hashU32 := fun _ => exampleKey
    setup := fun _ _ => .ok mainnetProver
    mockExecute := guestExecute
    generateGroth16Proof := fun proof _ => .ok proof }
  fs := listFiles

theorem listFiles_keeps (outDir : PathBuf) : listFiles.Keeps outDir where
  createDirAll files := ⟨files, rfl, fun _ _ h => h⟩
  save files path proof _ := by
    refine ⟨_, rfl, ?_, fun other otherProof _ hne hload => ?_⟩
    · simp [listFiles]
    · have hne' : (other == path) = false := beq_false_of_ne hne
      simpa [listFiles, List.lookup_cons, hne'] using hload

theorem mainnetProver_works (hashU32 : Unit → VerifierKeyDigest) :
    mainnetProver.Works .reference hashU32 where
  execute := guestExecute_runsGuest
  prove stdin input out verify hdelivers _ hguest := by
    have hexecute := guestExecute_runsGuest _ _ _ hdelivers (guestMain_ok_of_verified hguest)
    refine ⟨(), ?_, rfl⟩
    show (guestExecute stdin).map _ = _
    rw [hexecute]
    rfl

theorem provingMachine_works (outDir : PathBuf) :
    provingMachine.Works .reference provingConfig outDir mainnetProver where
  guestFips := Sha256Syscalls.reference_fips
  hostFips := HashLibrary.reference_fips
  setup := rfl
  mockExecute := guestExecute_runsGuest
  proves := mainnetProver_works _
  groth16 proof _ := ⟨proof, rfl⟩
  files := listFiles_keeps outDir

/-- Two batches are proved before the headers run out. -/
theorem runBatchSession_covers_mainnet : ∃ s completed,
    Reached provingMachine [] provingConfig mainnetTable s completed ∧
      runBatchSession provingMachine [] = .ok s.batchCount ∧ s.batchCount.toNat = 2 ∧
      ∀ (k : Nat) (hk : k < completed.length), completed[k].firstNewHeight.toNat = k + 1 ∧
        completed[k].endHeight.toNat = min (k + 1) 2 := by
  obtain ⟨hheights, s, completed, hreached, hrun, hcount, hlen⟩ :=
    runBatchSession_covers (by decide +kernel) rfl (provingMachine_works _) (by decide)
      mainnet_holdsChain rfl .genesis (Nat.zero_le _) (by decide)
  have hceil : completed.length = 2 := hlen.trans (by decide)
  refine ⟨s, completed, hreached, hrun, hcount.trans hceil, fun k hk => ?_⟩
  have hk' := (hheights s completed hreached).2 k hk
  simpa [provingConfig, mainnetChain] using hk'

end Mainnet

end Zkpow.Host
