import Zkpow.Coverage

/-!
# Resuming from any proof of a session

A session writes the proof of every batch into a file of its own, named by the heights of the
batch.  So no proof is overwritten, and a session that was stopped between batches can be taken up
from the proof of any batch it completed.

* `runSingleBatch_frame` — a batch writes the files of its own heights only;
* `Session.proofs` — every completed batch can be resumed from, in every state reached;
* `runBatchSession_restart` — a second session from any of these proofs covers the rest.
-/

set_option autoImplicit false

namespace Zkpow.Host

open ByteCodec ExceptFold

variable {Files Inner Vk : Type}

/-! ## File names -/

/-- The file of a compressed proof. -/
def compressedFile (outDir : PathBuf) (first last : UInt32) : PathBuf :=
  PathBuf.join outDir s!"proof_height_{first}_to_{last}.bin"

/-- Decimal digits end where the next character is none. -/
theorem digits_of_append {a b : Nat} {rest rest' : List Char}
    (h : Nat.toDigits 10 a ++ '_' :: rest = Nat.toDigits 10 b ++ '_' :: rest') : a = b := by
  have hdigits : ∀ (n : Nat) (r : List Char),
      (Nat.toDigits 10 n ++ '_' :: r).takeWhile Char.isDigit = Nat.toDigits 10 n := fun n r => by
    rw [List.takeWhile_append_of_pos fun c hc =>
      Nat.isDigit_of_mem_toDigits (by decide) (by decide) hc]
    simp
  have heq : Nat.toDigits 10 a = Nat.toDigits 10 b := by
    rw [← hdigits a rest, h, hdigits]
  calc a = Nat.ofDigitChars 10 (Nat.toDigits 10 a) 0 := Nat.ofDigitChars_ten_toDigits.symm
    _ = b := by rw [heq, Nat.ofDigitChars_ten_toDigits]

/-- The first height can be read off a file name. -/
theorem first_of_name {a b : UInt32} (rest rest' : String)
    (h : "proof_height_" ++ toString a ++ "_to_" ++ rest =
      "proof_height_" ++ toString b ++ "_to_" ++ rest') : a = b := by
  have hlist := congrArg String.toList h
  have hrepr : ∀ n : UInt32, (toString n).toList = Nat.toDigits 10 n.toNat :=
    fun n => Nat.toList_repr
  simp only [String.toList_append, hrepr, List.append_assoc] at hlist
  exact UInt32.toNat_inj.1 (digits_of_append (List.append_cancel_left hlist))

/-- Batches with different first heights share no file. -/
theorem compressedFile_ne {outDir : PathBuf} {a b first last : UInt32} (h : a ≠ first) :
    compressedFile outDir a b ≠ compressedFile outDir first last ∧
      compressedFile outDir a b ≠
        PathBuf.join outDir s!"proof_height_{first}_to_{last}_groth16.bin" := by
  constructor
  · refine join_ne fun heq => h ?_
    exact first_of_name (toString b ++ ".bin") (toString last ++ ".bin")
      (by rw [← String.append_assoc, ← String.append_assoc]; exact heq)
  · refine join_ne fun heq => h ?_
    exact first_of_name (toString b ++ ".bin") (toString last ++ "_groth16.bin")
      (by rw [← String.append_assoc, ← String.append_assoc]; exact heq)

/-! ## What a batch writes -/

/-- A call that succeeds leaves what was saved, other than what it writes.  Any call may fail. -/
structure FileSystem.Retains (fs : FileSystem Files Inner) (outDir : PathBuf) : Prop where
  createDirAll : ∀ files files', fs.createDirAll outDir files = .ok files' →
    ∀ path proof, fs.load files path = .ok proof → fs.load files' path = .ok proof
  save : ∀ files files' path proof, IsBatchFile outDir path →
    fs.save path proof files = .ok files' → fs.load files' path = .ok proof ∧
      ∀ other otherProof, IsBatchFile outDir other → other ≠ path →
        fs.load files other = .ok otherProof → fs.load files' other = .ok otherProof

theorem FileSystem.Keeps.retains {fs : FileSystem Files Inner} {outDir : PathBuf}
    (h : fs.Keeps outDir) : fs.Retains outDir where
  createDirAll files files' hdir := by
    obtain ⟨made, hmade, hkept⟩ := h.createDirAll files
    rw [Except.ok.inj (hdir.symm.trans hmade)]
    exact hkept
  save files files' path proof hpath hsave := by
    obtain ⟨saved, hsaved, hload, hkept⟩ := h.save files path proof hpath
    rw [Except.ok.inj (hsave.symm.trans hsaved)]
    exact ⟨hload, hkept⟩

section Frame

variable {host : Machine Files Inner Vk} {prover : Prover Inner Vk} {db : Table}
  {files files' : Files} {config : ProofGenerationConfig} {artifacts : ProofArtifacts Inner}

/-- A batch that was proved wrote its own files and no other. -/
structure WritesOwn (host : Machine Files Inner Vk) (outDir : PathBuf) (files files' : Files)
    (artifacts : ProofArtifacts Inner) : Prop where
  path : artifacts.compressedPath =
    some (compressedFile outDir artifacts.firstNewHeight artifacts.endHeight)
  kept : ∀ (a b : UInt32) proof, a ≠ artifacts.firstNewHeight →
    host.fs.load files (compressedFile outDir a b) = .ok proof →
    host.fs.load files' (compressedFile outDir a b) = .ok proof

/-- A batch saves the proof it was given, in a file of its own. -/
theorem saveProofs_frame (hretains : host.fs.Retains config.outputDir)
    {proof : ProofWithPublicValues Inner} {batch : PreparedBatch Inner}
    (h : saveProofs host config files prover batch proof = .ok (artifacts, files')) :
    WritesOwn host config.outputDir files files' artifacts ∧
      artifacts.firstNewHeight = batch.firstNewHeight ∧ artifacts.endHeight = batch.endHeight ∧
      host.fs.load files' (compressedPath config batch) = .ok proof := by
  have hbatch : ∀ a b : UInt32,
      IsBatchFile config.outputDir (compressedFile config.outputDir a b) :=
    fun a b => ⟨a, b, .inl rfl⟩
  unfold saveProofs at h
  obtain ⟨files₁, hdir, h⟩ := bind_ok.1 h
  obtain ⟨files₂, hsave, h⟩ := bind_ok.1 h
  have hkept₁ := hretains.createDirAll files files₁ (mapError_ok.1 hdir)
  obtain ⟨hload, hkept₂⟩ := hretains.save files₁ files₂ (compressedPath config batch) proof
    (hbatch batch.firstNewHeight batch.endHeight) (mapError_ok.1 hsave)
  have hstep : ∀ (a b : UInt32) other, a ≠ batch.firstNewHeight →
      host.fs.load files (compressedFile config.outputDir a b) = .ok other →
      host.fs.load files₂ (compressedFile config.outputDir a b) = .ok other :=
    fun a b other hne hload =>
      hkept₂ _ _ (hbatch a b) (compressedFile_ne hne).1 (hkept₁ _ _ hload)
  split at h
  · obtain ⟨groth16Proof, -, h⟩ := bind_ok.1 h
    obtain ⟨files₃, hsave', h⟩ := bind_ok.1 h
    obtain ⟨-, hkept₃⟩ := hretains.save files₂ files₃ (groth16Path config batch) groth16Proof
      ⟨batch.firstNewHeight, batch.endHeight, .inr rfl⟩ (mapError_ok.1 hsave')
    obtain ⟨rfl, rfl⟩ := Prod.mk.inj (Except.ok.inj h)
    exact ⟨⟨rfl, fun a b other hne hload =>
      hkept₃ _ _ (hbatch a b) (compressedFile_ne hne).2 (hstep a b other hne hload)⟩, rfl, rfl,
      hkept₃ _ _ (hbatch _ _) (groth16Path_ne_compressedPath config batch).symm hload⟩
  · obtain ⟨rfl, rfl⟩ := Prod.mk.inj (Except.ok.inj h)
    exact ⟨⟨rfl, hstep⟩, rfl, rfl, hload⟩

/-- A batch that is proved: it is prepared, proved by the prover of the configuration, and saved. -/
theorem runSingleBatch_parts (hexec : config.executeOnly = false)
    (h : runSingleBatch host config db files = .ok (artifacts, files')) :
    ∃ prepared batch proof,
      getPreparedProver host config.proverBackend config.cudaDeviceId = .ok prepared ∧
      configuredBatch host config db files = .ok batch ∧
      generateCompressedProof host.lib host.sdk.hashU32 prepared.prover batch = .ok proof ∧
      saveProofs host config files prepared.prover batch proof = .ok (artifacts, files') := by
  have hmode : config.mode ≠ .executeOnly := fun hm => by
    rw [mode_eq_executeOnly.1 hm] at hexec
    cases hexec
  rw [runSingleBatch, generateAndSaveProofs, if_neg fun hm => hmode hm.1] at h
  obtain ⟨prepared, hprepared, h⟩ := bind_ok.1 h
  unfold runWithProver at h
  obtain ⟨batch, hbatch, h⟩ := bind_ok.1 h
  rw [if_neg hmode] at h
  obtain ⟨proof, hproof, h⟩ := bind_ok.1 h
  exact ⟨prepared, batch, proof, hprepared, hbatch, mapError_ok.1 hproof, h⟩

/-- **A batch keeps the proofs of other batches.** -/
theorem runSingleBatch_frame (hretains : host.fs.Retains config.outputDir)
    (hexec : config.executeOnly = false)
    (h : runSingleBatch host config db files = .ok (artifacts, files')) :
    WritesOwn host config.outputDir files files' artifacts := by
  obtain ⟨prepared, batch, proof, -, -, -, hsaved⟩ := runSingleBatch_parts hexec h
  exact (saveProofs_frame hretains hsaved).1

/-- A session that proves goes on from the proof of the batch. -/
theorem SessionState.next_of_proving (hexec : config.executeOnly = false)
    (s : SessionState Files) :
    s.next config artifacts files' =
      ⟨s.batchCount + 1, artifacts.compressedPath, none, files'⟩ := by
  unfold SessionState.next
  rw [if_neg (by rw [hexec]; decide)]

end Frame

/-! ## The proofs of a session -/

section Session

variable {sys : Sha256Syscalls} {host : Machine Files Inner Vk} {prover : Prover Inner Vk}
  {db : Table} {config : ProofGenerationConfig} {outDir : PathBuf} {row : Nat → Row} {c : Chain}
  {genesis : HeaderRecord} {work : Nat → ChainWork} {g : State} {H : Nat} {files₀ : Files}
  {s : SessionState Files} {completed : List (ProofArtifacts Inner)}

/-- A batch file that is loaded as before can be resumed from as before. -/
theorem ResumesAt.of_load {files files' : Files} {path : PathBuf} {k : Nat}
    (h : ResumesAt host prover db files (some path) none k)
    (hkeep : ∀ proof, host.fs.load files path = .ok proof → host.fs.load files' path = .ok proof) :
    ResumesAt host prover db files' (some path) none k := by
  cases h with
  | proof hstate hload hverify => exact .proof hstate (hkeep _ hload) hverify

/-- Every completed batch has a proof file that a batch can resume from. -/
def Proofs (host : Machine Files Inner Vk) (prover : Prover Inner Vk) (db : Table)
    (outDir : PathBuf) (files : Files) (completed : List (ProofArtifacts Inner)) : Prop :=
  ∀ (k : Nat) (hk : k < completed.length),
    completed[k].compressedPath =
      some (compressedFile outDir completed[k].firstNewHeight completed[k].endHeight) ∧
    ResumesAt host prover db files completed[k].compressedPath none completed[k].endHeight.toNat

variable (hworks : host.Works sys config outDir prover)
  (hfeature : config.proverBackend = .cuda → host.cudaFeature = true)
  (h : HoldsChain (hashHeader host.lib) db row c genesis work)
  (hgenesis : c.genesisHash = GENESIS_HASH)
  (hg : genesisStateFromRecord (hashHeader host.lib) genesis c.genesisHash = .ok g)
  (hbound : min (H + config.batchCount.toNat * config.numHeaders.toNat) (c.headers.length + 1) <
    2 ^ 32)
  (hexec : config.executeOnly = false)
  (hH : H ≤ c.headers.length)

include hworks hfeature h hgenesis hg hbound hexec hH

/-- **No proof of a session is lost**: in every state reached each completed batch can be resumed
from. -/
theorem Session.proofs (hs : Session host config db outDir files₀ s completed)
    (hstart : ResumesAt host prover db files₀ config.prevProofPath none H) :
    Proofs host prover db outDir s.files completed := by
  have hmock : config.executeOnly = true → config.proverBackend = .mock := fun h => by
    rw [hexec] at h
    cases h
  induction hs with
  | start => exact fun k hk => nomatch hk
  | @turn s completed files files' artifacts hs hlt hdir hrun ih =>
    obtain ⟨hc, -⟩ := hs.covered hworks hfeature h hgenesis hg hbound hmock hH hstart
    obtain ⟨hc', hcount⟩ := (Session.turn hs hlt hdir hrun).covered hworks hfeature h hgenesis hg
      hbound hmock hH hstart
    have hframe : WritesOwn host (s.batchConfig config outDir).outputDir files files' artifacts :=
      runSingleBatch_frame hworks.files.retains hexec hrun
    have hkept := hworks.files.retains.createDirAll _ _ hdir
    have hnext : s.next config artifacts files' =
        ⟨s.batchCount + 1, artifacts.compressedPath, none, files'⟩ :=
      SessionState.next_of_proving hexec s
    have hlast := hc'.heights completed.length (by simp)
    rw [List.getElem_concat_length rfl] at hlast
    intro k hk
    rcases Nat.lt_or_ge k completed.length with hk' | hk'
    -- an earlier batch: its file is not one of this batch
    · rw [List.getElem_append_left hk']
      obtain ⟨hpath, hresumes⟩ := ih k hk'
      refine ⟨hpath, ?_⟩
      rw [hpath] at hresumes ⊢
      refine hresumes.of_load fun proof hload => ?_
      rw [hnext]
      refine hframe.kept _ _ _ (fun heq => ?_) (hkept _ _ hload)
      have hpos : 0 < config.numHeaders.toNat := by
        rw [List.length_append, List.length_singleton] at hcount
        split at hcount <;> omega
      have hbefore := Nat.mul_lt_mul_of_pos_right hk' hpos
      have hfirst := (hc.heights k hk').1
      rw [heq, hlast.1] at hfirst
      omega
    · obtain rfl : k = completed.length := by
        rw [List.length_append, List.length_singleton] at hk
        omega
      rw [List.getElem_concat_length rfl]
      have hresumes := hc'.resumes
      rw [List.length_append, List.length_singleton, ← hlast.2] at hresumes
      refine ⟨hframe.path, ?_⟩
      rw [hnext] at hresumes ⊢
      exact hresumes

end Session

/-- A state of a proving session on a machine that works and a database that holds a chain. -/
structure ProvingSession (sys : Sha256Syscalls) (host : Machine Files Inner Vk) (files₀ : Files)
    (config : ProofGenerationConfig) (db : Table) (prover : Prover Inner Vk) (c : Chain)
    (genesis : HeaderRecord) (H : Nat) (s : SessionState Files)
    (completed : List (ProofArtifacts Inner)) : Prop where
  reached : Reached host files₀ config db s completed
  works : host.Works sys config (sessionOutDir host config) prover
  proving : config.executeOnly = false
  chain : ∃ row work, HoldsChain (hashHeader host.lib) db row c genesis work
  genesisHash : c.genesisHash = GENESIS_HASH
  start : ResumesAt host prover db files₀ config.prevProofPath none H
  start_le : H ≤ c.headers.length
  fits : min (H + config.batchCount.toNat * config.numHeaders.toNat)
    (c.headers.length + 1) < 2 ^ 32

section Proving

variable {sys : Sha256Syscalls} {host : Machine Files Inner Vk} {files₀ : Files}
  {config : ProofGenerationConfig} {db : Table} {prover : Prover Inner Vk} {c : Chain}
  {genesis : HeaderRecord} {H k : Nat} {s : SessionState Files}
  {completed : List (ProofArtifacts Inner)}

/-- What a completed batch leaves: the file it names, which can be resumed from. -/
theorem ProvingSession.proof
    (h : ProvingSession sys host files₀ config db prover c genesis H s completed)
    (hk : k < completed.length) :
    completed[k].endHeight.toNat ≤ c.headers.length ∧
    completed[k].compressedPath = some (compressedFile (sessionOutDir host config)
      completed[k].firstNewHeight completed[k].endHeight) ∧
    ResumesAt host prover db s.files completed[k].compressedPath none
      completed[k].endHeight.toNat := by
  obtain ⟨row, work, hchain⟩ := h.chain
  obtain ⟨g, hg⟩ := hchain.exists_genesis
  have hfeature := configFromSource_cuda h.reached.configured
  obtain ⟨hc, -⟩ := h.reached.session.covered h.works hfeature hchain h.genesisHash hg h.fits
    (fun hexec => by rw [h.proving] at hexec; cases hexec) h.start_le h.start
  refine ⟨?_, h.reached.session.proofs h.works hfeature hchain h.genesisHash hg h.fits h.proving
    h.start_le h.start k hk⟩
  rw [(hc.heights k hk).2]
  exact Nat.min_le_right _ _

/-- A chain that is continued has the states it had. -/
theorem Chain.stateAt_of_prefix {hashHeader : Header → BlockHash} {c c' : Chain} {g : State}
    {k : Nat} (hmore : c.headers <+: c'.headers) (hk : k ≤ c.headers.length) :
    c'.stateAt hashHeader g k = c.stateAt hashHeader g k := by
  obtain ⟨rest, hrest⟩ := hmore
  rw [Chain.stateAt, Chain.stateAt, ← hrest, List.take_append_of_le_length hk]

/-- A database that holds more blocks has the same state for the blocks there were. -/
theorem stateFromDbAtHeight_of_prefix {lib : HashLibrary} {db' : Table} {row row' : Nat → Row}
    {c' : Chain} {work work' : Nat → ChainWork}
    (h : HoldsChain (hashHeader lib) db row c genesis work)
    (h' : HoldsChain (hashHeader lib) db' row' c' genesis work')
    (hgenesis : c.genesisHash = GENESIS_HASH) (hgenesis' : c'.genesisHash = GENESIS_HASH)
    (hmore : c.headers <+: c'.headers) (hk : k ≤ c.headers.length) (hbound : k < 2 ^ 32) :
    ∃ state, stateFromDbAtHeight (hashHeader lib) db (UInt32.ofNat k) GENESIS_HASH = .ok state ∧
      stateFromDbAtHeight (hashHeader lib) db' (UInt32.ofNat k) GENESIS_HASH = .ok state := by
  obtain ⟨g, hg⟩ := h.exists_genesis
  have hg' : genesisStateFromRecord (hashHeader lib) genesis c'.genesisHash = .ok g := by
    rw [hgenesis', ← hgenesis, hg]
  have hnew := h'.stateFromDbAtHeight hg' (hk.trans hmore.length_le) hbound
  rw [Chain.stateAt_of_prefix hmore hk, hgenesis'] at hnew
  rw [← hgenesis] at hnew ⊢
  exact ⟨_, h.stateFromDbAtHeight hg hk hbound, hnew⟩

/-! ## A second session -/

/-- The machine at another time: its environment, clock and database file may have changed. -/
def Machine.later (host : Machine Files Inner Vk) (env : EnvSource) (sessionTimestamp : String)
    (connect : PathBuf → Except String Table) : Machine Files Inner Vk :=
  { host with
    env := env
    sessionTimestamp := sessionTimestamp
    connect := connect }

/-- A proof that could be resumed from can be resumed from later, when the database holds more
blocks, on any prover for the same key that verifies what the first one did. -/
theorem ResumesAt.later {prover' : Prover Inner Vk} {db' : Table} {files : Files} {path : PathBuf}
    {row row' : Nat → Row} {c' : Chain} {work work' : Nat → ChainWork} (env : EnvSource)
    (sessionTimestamp : String) (connect : PathBuf → Except String Table)
    (h : ResumesAt host prover db files (some path) none k)
    (hkey : prover'.verifyingKey = prover.verifyingKey)
    (hverify : ∀ proof, prover.verify proof = .ok () → prover'.verify proof = .ok ())
    (hchain : HoldsChain (hashHeader host.lib) db row c genesis work)
    (hchain' : HoldsChain (hashHeader host.lib) db' row' c' genesis work')
    (hgenesis : c.genesisHash = GENESIS_HASH) (hgenesis' : c'.genesisHash = GENESIS_HASH)
    (hmore : c.headers <+: c'.headers) (hk : k ≤ c.headers.length) (hbound : k < 2 ^ 32) :
    ResumesAt (host.later env sessionTimestamp connect) prover' db' files (some path) none k := by
  obtain ⟨state, hold, hnew⟩ :=
    stateFromDbAtHeight_of_prefix hchain hchain' hgenesis hgenesis' hmore hk hbound
  cases h with
  | proof hstate hload hproof =>
    rw [hold] at hstate
    rw [← Except.ok.inj hstate, ← hkey] at hload hproof
    exact .proof hnew hload (hverify _ hproof)

/-- **A session can be taken up again.**  In every state a proving session reaches, from the proof
of any batch it completed, a second session, on a database that may hold more blocks by then, ends
without error, and its batches follow each other from the end of that batch on, without gap or
repetition, to the last block or the limit. -/
theorem runBatchSession_restart {config' : ProofGenerationConfig} {db' : Table}
    {prover' : Prover Inner Vk} {row' : Nat → Row} {c' : Chain} {work' : Nat → ChainWork}
    {env : EnvSource} {sessionTimestamp : String} {connect : PathBuf → Except String Table}
    (h : ProvingSession sys host files₀ config db prover c genesis H s completed)
    (hk : k < completed.length)
    (hconfig : configFromSource host.cudaFeature host.dbPathDefault env = .ok config')
    (hprev : config'.prevProofPath = completed[k].compressedPath)
    (hconnect : connect config'.dbPath = .ok db')
    (hworks : (host.later env sessionTimestamp connect).Works sys config'
      (sessionOutDir (host.later env sessionTimestamp connect) config') prover')
    (hmock : config'.executeOnly = true → config'.proverBackend = .mock)
    (hkey : prover'.verifyingKey = prover.verifyingKey)
    (hverify : ∀ proof, prover.verify proof = .ok () → prover'.verify proof = .ok ())
    (hchain' : HoldsChain (hashHeader host.lib) db' row' c' genesis work')
    (hgenesis' : c'.genesisHash = GENESIS_HASH)
    (hmore : c.headers <+: c'.headers)
    (hfits : min (completed[k].endHeight.toNat +
      config'.batchCount.toNat * config'.numHeaders.toNat) (c'.headers.length + 1) < 2 ^ 32) :
    ∃ s' completed',
      Reached (host.later env sessionTimestamp connect) s.files config' db' s' completed' ∧
      runBatchSession (host.later env sessionTimestamp connect) s.files = .ok s'.batchCount ∧
      s'.batchCount.toNat = completed'.length ∧
      (completed'.length = if config'.numHeaders.toNat = 0 then 0 else
        min config'.batchCount.toNat
          ((c'.headers.length - completed[k].endHeight.toNat) ⌈/⌉ config'.numHeaders.toNat)) ∧
      ∀ (i : Nat) (hi : i < completed'.length),
        completed'[i].firstNewHeight.toNat =
          completed[k].endHeight.toNat + i * config'.numHeaders.toNat + 1 ∧
        completed'[i].endHeight.toNat =
          min (completed[k].endHeight.toNat + (i + 1) * config'.numHeaders.toNat)
            c'.headers.length := by
  obtain ⟨row, work, hchain⟩ := h.chain
  obtain ⟨hend, hpath, hresumes⟩ := h.proof hk
  -- the proof of the batch is there, and the second session resumes from it
  rw [hpath] at hresumes hprev
  have hstart := hresumes.later env sessionTimestamp connect hkey hverify hchain hchain'
    h.genesisHash hgenesis' hmore hend completed[k].endHeight.toNat_lt
  rw [← hprev] at hstart
  have hH : completed[k].endHeight.toNat ≤ c'.headers.length := hend.trans hmore.length_le
  obtain ⟨g, hg⟩ := hchain'.exists_genesis
  have hfeature := configFromSource_cuda hconfig
  obtain ⟨s', completed', hs, hlen⟩ := exists_session hworks hfeature hchain' hgenesis' hg hfits
    hmock hH hstart (Nat.le_refl _)
  obtain ⟨hc, -⟩ := hs.covered hworks hfeature hchain' hgenesis' hg hfits hmock hH hstart
  have hreached : Reached (host.later env sessionTimestamp connect) s.files config' db' s'
      completed' := ⟨hconfig, hconnect, hs⟩
  refine ⟨s', completed', hreached, ?_, hc.count, hlen, hc.heights⟩
  rw [hreached.runBatchSession_eq]
  exact hc.runBatches_eq hworks hfeature hchain' hgenesis' hg hfits hlen.ge.not_gt

end Proving

/-! ## Two blocks in two sessions -/

section Mainnet

/-- Every batch there are blocks for in the table is reached. -/
theorem exists_provingSession {host : Machine Files Inner Vk} {prover : Prover Inner Vk}
    {config : ProofGenerationConfig} (files₀ : Files)
    (hworks : host.Works .reference config (sessionOutDir host config) prover)
    (hconfig : configFromSource host.cudaFeature host.dbPathDefault host.env = .ok config)
    (hconnect : host.connect config.dbPath = .ok mainnetTable) (hlib : host.lib = .reference)
    (hexec : config.executeOnly = false) (hprev : config.prevProofPath = none) {n : Nat}
    (hn : n ≤ if config.numHeaders.toNat = 0 then 0 else
      min config.batchCount.toNat (2 ⌈/⌉ config.numHeaders.toNat)) : ∃ s completed,
    ProvingSession .reference host files₀ config mainnetTable prover
      mainnetChain ⟨0, mainnetHeader 0, mainnetWork 0, mainnetMedian 0⟩ 0 s completed ∧
    completed.length = n ∧ ∀ (k : Nat) (hk : k < completed.length),
      completed[k].firstNewHeight.toNat = k * config.numHeaders.toNat + 1 ∧
      completed[k].endHeight.toNat = min ((k + 1) * config.numHeaders.toNat) 2 := by
  have hchain := mainnet_holdsChain
  rw [← hlib] at hchain
  obtain ⟨g, hg⟩ := hchain.exists_genesis
  have hfeature := configFromSource_cuda hconfig
  have hmock : config.executeOnly = true → config.proverBackend = .mock := fun h => by
    rw [hexec] at h
    cases h
  have hstart : ResumesAt host prover mainnetTable files₀ config.prevProofPath none 0 := by
    rw [hprev]
    exact .genesis
  have hfits : min (0 + config.batchCount.toNat * config.numHeaders.toNat)
      (mainnetChain.headers.length + 1) < 2 ^ 32 :=
    (Nat.min_le_right _ _).trans_lt (by decide)
  obtain ⟨s, completed, hs, hlen⟩ := exists_session hworks hfeature hchain rfl hg hfits hmock
    (Nat.zero_le _) hstart hn
  obtain ⟨hc, -⟩ := hs.covered hworks hfeature hchain rfl hg hfits hmock (Nat.zero_le _) hstart
  refine ⟨s, completed, ⟨⟨hconfig, hconnect, hs⟩, hworks, hexec, ⟨_, _, hchain⟩, rfl, hstart,
    Nat.zero_le _, hfits⟩, hlen, fun k hk => ?_⟩
  have hheights := hc.heights k hk
  rw [Nat.zero_add, Nat.zero_add] at hheights
  exact hheights

/-- A session that has proved the first block, or both. -/
theorem provingSession_mainnet {n : Nat} (hn : n ≤ 2) : ∃ s completed,
    ProvingSession .reference provingMachine [] provingConfig mainnetTable mainnetProver
      mainnetChain ⟨0, mainnetHeader 0, mainnetWork 0, mainnetMedian 0⟩ 0 s completed ∧
    completed.length = n ∧ ∀ (k : Nat) (hk : k < completed.length),
      completed[k].firstNewHeight.toNat = k * 1 + 1 ∧
      completed[k].endHeight.toNat = min ((k + 1) * 1) 2 :=
  exists_provingSession [] (provingMachine_works _) (by decide +kernel) rfl rfl rfl rfl
    (hn.trans (by decide))

/-- A prover that verifies public values of the right length only. -/
def lengthProver : Prover Unit Unit :=
  { mainnetProver with
    verify := fun proof => if proof.publicValues.length = MINIMAL_PV_SIZE then .ok () else
      .error "invalid public values length" }

/-- A build with the feature `cuda`.  The GPU verifies whatever the CPU does, and more. -/
def gpuMachine : Machine (List (PathBuf × ProofWithPublicValues Unit)) Unit Unit :=
  { provingMachine with
    cudaFeature := true
    sdk := { provingMachine.sdk with
      setup := fun backend _ => .ok (if backend = .cuda then mainnetProver else lengthProver) } }

/-- The proof of the first block. -/
def mainnetProofFile : PathBuf := compressedFile "profiling/sp1/continuous/0" 1 1

/-- What is left is proved on the GPU. -/
def restartEnv : EnvSource := fun name =>
  if name = ENV_ZKPOW_PREV_PROOF then .ok mainnetProofFile
  else if name = ENV_ZKPOW_USE_CUDA then .ok "1"
  else provingEnv name

def restartConfig : ProofGenerationConfig :=
  { provingConfig with
    prevProofPath := some mainnetProofFile
    proverBackend := .cuda }

/-- What the CPU verifies is verified on the GPU. -/
theorem Prover.Attests.to_mainnetProver {hashU32 : Unit → VerifierKeyDigest}
    {stdin : Stdin Unit Unit} {vk : VerifierKeyDigest} {digest : Bytes32}
    (h : lengthProver.Attests hashU32 stdin vk digest) :
    mainnetProver.Attests hashU32 stdin vk digest := by
  obtain ⟨inner, publicValues, hmem, hvk, hdigest, -⟩ := h
  exact ⟨inner, publicValues, hmem, hvk, hdigest, rfl⟩

theorem lengthProver_works (hashU32 : Unit → VerifierKeyDigest) :
    lengthProver.Works .reference hashU32 where
  execute := guestExecute_runsGuest
  prove stdin input out verify hdelivers hattests hguest := by
    obtain ⟨inner, hprove, -⟩ := (mainnetProver_works hashU32).prove stdin input out verify
      hdelivers (fun vk digest h => (hattests vk digest h).to_mainnetProver) hguest
    refine ⟨inner, hprove, ?_⟩
    obtain ⟨run, -, -, hout⟩ := guestMain_ok_iff.1 hguest
    have hlen : run.committed.length = MINIMAL_PV_SIZE := MinimalPublicValues.length_toBytes _
    rw [hout] at hlen
    exact if_pos hlen

theorem gpuMachine_works (outDir : PathBuf) :
    gpuMachine.Works .reference provingConfig outDir lengthProver :=
  { provingMachine_works outDir with
    setup := rfl
    proves := lengthProver_works _
    groth16 := fun proof _ => ⟨proof, rfl⟩ }

theorem gpuMachine_later_works (outDir : PathBuf) :
    (gpuMachine.later restartEnv "1" gpuMachine.connect).Works .reference restartConfig outDir
      mainnetProver :=
  { provingMachine_works outDir with
    setup := rfl
    proves := mainnetProver_works _ }

/-- The first session is stopped after one block, and the second proves the other on the GPU. -/
theorem runBatchSession_restart_mainnet : ∃ s completed s' completed',
    Reached gpuMachine [] provingConfig mainnetTable s completed ∧ completed.length = 1 ∧
      Reached (gpuMachine.later restartEnv "1" gpuMachine.connect) s.files restartConfig
        mainnetTable s' completed' ∧
      runBatchSession (gpuMachine.later restartEnv "1" gpuMachine.connect) s.files =
        .ok s'.batchCount ∧ s'.batchCount.toNat = 1 ∧
      ∀ (i : Nat) (hi : i < completed'.length),
        completed'[i].firstNewHeight.toNat = i + 2 := by
  obtain ⟨s, completed, h, hlen, hheights⟩ :=
    exists_provingSession (n := 1) [] (gpuMachine_works _) (by decide +kernel) rfl rfl rfl rfl
      (by decide)
  have hk : 0 < completed.length := by omega
  obtain ⟨hfirst, hend⟩ := hheights 0 hk
  have hfirst' : completed[0].firstNewHeight = 1 := UInt32.toNat_inj.1 hfirst
  have hend' : completed[0].endHeight = 1 := UInt32.toNat_inj.1 hend
  have hpath := (h.proof hk).2.1
  rw [hfirst', hend'] at hpath
  have hconfig : configFromSource true "headers.db" restartEnv = .ok restartConfig := by
    decide +kernel
  obtain ⟨s', completed', hreached', hrun, hcount, hlen', hheights'⟩ :=
    runBatchSession_restart h hk hconfig hpath.symm rfl (gpuMachine_later_works _) (by decide)
      rfl (fun _ _ => rfl) mainnet_holdsChain rfl (List.prefix_refl _) (by rw [hend']; decide)
  rw [hend'] at hlen' hheights'
  have hceil : completed'.length = 1 := hlen'.trans (by decide)
  refine ⟨s, completed, s', completed', h.reached, hlen, hreached', hrun, hcount.trans hceil,
    fun i hi => ?_⟩
  have hi' := (hheights' i hi).1
  have hnum : restartConfig.numHeaders.toNat = 1 := rfl
  have hone : UInt32.toNat 1 = 1 := rfl
  rw [hnum, hone] at hi'
  omega

end Mainnet

end Zkpow.Host
