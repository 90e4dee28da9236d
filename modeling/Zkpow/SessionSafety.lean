import Zkpow.Resumption
import Zkpow.Incremental

/-!
# What a session certifies

Nothing is assumed here of the executor, the prover and the verifier, and nothing of what the rows
of the database hold beside their heights.  The host checks what comes back from the prover, and
starts a batch only where the database agrees with the proof before
(`crates/host/src/pipeline/{batch,execution}.rs`, `pipeline/proof/compressed.rs`).  So every proof
a session has written certifies the replay of all rows up to the last block of its batch.

The assumptions are that a call of the file system keeps what was saved when it succeeds
(`FileSystem.Retains`), that the table has one row for every height (`Heights`), that the headers
compared by their hashes do not collide (`NoCollision`), and that the session starts at genesis or
from a proof of a replay (`FollowsReplay`).

* `ReplaysTo` — the state in which replaying the rows from genesis ends;
* `ReplaysTo.batch` — a batch that is prepared prolongs the replay;
* `generateCompressedProof_ok` — what a proof that is returned says;
* `session_certifies` — the proof files in every state a session reaches;
* `proofFile_says` — two files for one last block have the same public values;
* `session_proves_rows` — what was proved, if what verifies was committed by a run of the guest.
-/

set_option autoImplicit false

namespace Zkpow.Host

open ByteCodec ExceptFold HashChain KeyedTable

variable {Files Inner Vk : Type}

/-! ## Replaying the rows -/

/-- Row 0 is the genesis block, and replaying the rows `1 … k` from it ends in a state. -/
def ReplaysTo (lib : HashLibrary) (db : Table) (k : Nat) (e : State) : Prop :=
  ∃ genesis g w, loadHeaderRecord db 0 = .ok genesis ∧
    genesisStateFromRecord (hashHeader lib) genesis GENESIS_HASH = .ok g ∧
    loadHeaderBatchWitness db 1 k = .ok w ∧ w.headers.length = k ∧
    applyHeaders (hashHeader lib) g w.headers w.medianTimePastHints = .ok (e, .ok ())

/-- One row for every height below `n` and no other.  What else the rows hold is arbitrary. -/
structure Heights (db : Table) (row : Nat → Row) (n : Nat) : Prop where
  onePer : OnePer Row.height db row n
  top : ∀ r ∈ db, r.height < n
  fits : n < 2 ^ 32

/-- The headers at hand do not collide: that of row 0 with the genesis header, and that of a row
with the last header of a replay up to the row. -/
structure NoCollision (lib : HashLibrary) (db : Table) (genesisHeader : Header) : Prop where
  genesisHash : hashHeader lib genesisHeader = GENESIS_HASH
  genesisBits : genesisHeader.compactTarget = GENESIS_NBITS
  genesis : ∀ record, loadHeaderRecord db 0 = .ok record →
    Set.InjOn (hashHeader lib) {record.header, genesisHeader}
  tip : ∀ k record e, loadHeaderRecord db k = .ok record → ReplaysTo lib db k e →
    Set.InjOn (hashHeader lib) {record.header, e.header}

section Replay

variable {lib : HashLibrary} {db : Table} {row : Nat → Row} {n k : Nat} {s e : State}

/-- A query is cut off at the last row. -/
theorem Heights.loadHeaderBatchWitness_min (h : Heights db row n) {start : Nat} (hle : start ≤ n)
    (count : Nat) : loadHeaderBatchWitness db start count =
      loadHeaderBatchWitness db start (min count (n - start)) := by
  have hselect : selectHeights db start (start + count) =
      selectHeights db start (start + min count (n - start) : Nat) := by
    rw [selectHeights, select_min h.top]
    congr 2
    omega
  unfold loadHeaderBatchWitness
  rw [hselect]

/-- How many headers a query returns. -/
theorem Heights.length_witness (h : Heights db row n) {start count : Nat} (hle : start ≤ n)
    {w : HeaderBatchWitness} (hw : loadHeaderBatchWitness db start count = .ok w) :
    w.headers.length = min count (n - start) := by
  rw [h.loadHeaderBatchWitness_min hle] at hw
  exact (loadHeaderBatchWitness_spec h.onePer (by omega) hw).1

/-- Two queries for adjacent ranges are one. -/
theorem loadHeaderBatchWitness_append (hdb : OnePer Row.height db row n) {start m : Nat}
    (hle : start + k + m ≤ n) {w w' : HeaderBatchWitness}
    (hw : loadHeaderBatchWitness db start k = .ok w)
    (hw' : loadHeaderBatchWitness db (start + k) m = .ok w') :
    loadHeaderBatchWitness db start (k + m) = .ok ⟨w.headers ++ w'.headers,
      w.medianTimePastHints ++ w'.medianTimePastHints⟩ := by
  unfold loadHeaderBatchWitness at *
  obtain ⟨rows, hrows, hw⟩ := bind_ok.1 hw
  obtain ⟨rows', hrows', hw'⟩ := bind_ok.1 hw'
  rw [selectHeights_eq hdb (by omega)] at hrows hrows' ⊢
  have hall : ((List.range' start (k + m)).map row).mapM witnessOfRow = .ok (rows ++ rows') := by
    rw [← List.range'_append_1, List.map_append, List.mapM_append]
    exact bind_ok.2 ⟨rows, hrows, bind_ok.2 ⟨rows', hrows', rfl⟩⟩
  rw [hall, ← Except.ok.inj hw, ← Except.ok.inj hw']
  show Except.ok _ = _
  rw [List.map_append, List.map_append]

/-- The genesis state replays no row. -/
theorem replaysTo_zero
    (h : stateFromDbAtHeight (hashHeader lib) db 0 GENESIS_HASH = .ok s) :
    ReplaysTo lib db 0 s := by
  unfold stateFromDbAtHeight at h
  rw [if_pos rfl] at h
  obtain ⟨genesis, hgenesis, h⟩ := bind_ok.1 h
  exact ⟨genesis, s, ⟨[], []⟩, hgenesis, h, loadHeaderBatchWitness_zero db 1, rfl,
    applyHeaders_ok.2 ⟨hintsCorrect_nil s, rfl⟩⟩

/-- Only rows that are there are replayed. -/
theorem ReplaysTo.lt (h : ReplaysTo lib db k e) (hrows : Heights db row n) : k < n := by
  obtain ⟨genesis, -, w, hgenesis, -, hw, hlen, -⟩ := h
  have hpos : 0 < n := by
    unfold loadHeaderRecord at hgenesis
    obtain ⟨records, hrecords, hgenesis⟩ := bind_ok.1 hgenesis
    cases records with
    | nil => cases hgenesis
    | cons r rest =>
      obtain ⟨row, hmem, -⟩ := exists_of_mem_mapM_ok hrecords (List.mem_cons_self)
      obtain ⟨hmem, hlo, -⟩ := mem_select.1 hmem
      have htop := hrows.top row hmem
      omega
  have hlen' := hrows.length_witness (Nat.succ_le_of_lt hpos) hw
  omega

/-- The height of the state is the number of rows replayed. -/
theorem ReplaysTo.height (h : ReplaysTo lib db k e) : e.height = UInt32.ofNat k := by
  obtain ⟨genesis, g, w, hgenesis, hg, -, hlen, hrun⟩ := h
  have hzero : stateFromDbAtHeight (hashHeader lib) db 0 GENESIS_HASH = .ok g := by
    unfold stateFromDbAtHeight
    rw [if_pos rfl]
    exact bind_ok.2 ⟨genesis, hgenesis, hg⟩
  rw [height_of_foldlM (applyHeaders_ok.1 hrun).2, stateFromDbAtHeight_height hzero, hlen,
    UInt32.zero_add]

/-- A replay goes on with the rows after it. -/
theorem ReplaysTo.extend (h : ReplaysTo lib db k s) (hrows : Heights db row n) {count : Nat}
    {w : HeaderBatchWitness} (hw : loadHeaderBatchWitness db (k + 1) count = .ok w)
    (hrun : applyHeaders (hashHeader lib) s w.headers w.medianTimePastHints = .ok (e, .ok ())) :
    ReplaysTo lib db (k + w.headers.length) e := by
  have hlt : k + 1 ≤ n := h.lt hrows
  have hlen' := hrows.length_witness hlt hw
  rw [hrows.loadHeaderBatchWitness_min hlt, ← hlen', Nat.add_comm k 1] at hw
  obtain ⟨genesis, g, w₀, hgenesis, hg, hw₀, hlen, hrun₀⟩ := h
  refine ⟨genesis, g, _, hgenesis, hg,
    loadHeaderBatchWitness_append hrows.onePer (by omega) hw₀ hw, ?_,
    (applyHeaders_append_ok hrun₀ _).2 hrun⟩
  rw [List.length_append, hlen]

/-- The header of a state of the database is that of a row. -/
theorem stateFromDbAtHeight_record {height : UInt32} {genesisHash : BlockHash}
    (h : stateFromDbAtHeight (hashHeader lib) db height genesisHash = .ok s) :
    ∃ record, loadHeaderRecord db height.toNat = .ok record ∧ record.header = s.header := by
  unfold stateFromDbAtHeight at h
  split at h
  · rename_i h0
    obtain ⟨genesis, hgenesis, h⟩ := bind_ok.1 h
    obtain ⟨-, _, -, rfl⟩ := genesisStateFromRecord_ok.1 h
    exact ⟨genesis, h0 ▸ hgenesis, rfl⟩
  · obtain ⟨current, hcurrent, h⟩ := bind_ok.1 h
    obtain ⟨_, -, h⟩ := bind_ok.1 h
    obtain ⟨_, -, h⟩ := bind_ok.1 h
    obtain ⟨_, -, h⟩ := bind_ok.1 h
    exact ⟨current, hcurrent, by rw [← Except.ok.inj h]⟩

/-- A state of the database that has the claim of the replay is the state of the replay. -/
theorem ReplaysTo.eq_of_claim {genesisHeader : Header} (h : ReplaysTo lib db k e)
    (hrows : Heights db row n) (hcollision : NoCollision lib db genesisHeader)
    (hs : stateFromDbAtHeight (hashHeader lib) db (UInt32.ofNat k) GENESIS_HASH = .ok s)
    (hclaim : s.publicClaim = e.publicClaim) : s = e := by
  have hlt := h.lt hrows
  have hk : (UInt32.ofNat k).toNat = k := UInt32.toNat_ofNat_of_lt' (hlt.trans hrows.fits)
  have hreplay := h
  obtain ⟨genesis, g, w, hgenesis, hg, hw, hlen, hrun⟩ := h
  have hheader : genesis.header = genesisHeader :=
    hcollision.genesis genesis hgenesis (by simp) (by simp)
      ((genesisStateFromRecord_ok.1 hg).1.trans hcollision.genesisHash.symm)
  obtain ⟨record, hrecord, hsheader⟩ := stateFromDbAtHeight_record hs
  rw [hk] at hrecord
  rw [← hk] at hw
  refine stateFromDbAtHeight_eq_replay (hrows.onePer.mono (by omega)) hgenesis
    (by rw [hheader, hcollision.genesisBits]) hg hw hrun hs hclaim ?_
  rw [← hsheader]
  exact hcollision.tip k record e hrecord hreplay

end Replay

/-! ## On a table that holds a chain -/

section Chain

variable {lib : HashLibrary} {db : Table} {row : Nat → Row} {c : Chain} {genesis : HeaderRecord}
  {work : Nat → ChainWork}

theorem heights_of_holdsChain (h : HoldsChain (hashHeader lib) db row c genesis work)
    (hbound : c.headers.length + 1 < 2 ^ 32) : Heights db row (c.headers.length + 1) where
  onePer := h.onePer
  top r hr := by
    have htop := h.top r hr
    omega
  fits := hbound

/-- There the state the replay ends in is that of the chain, whatever collides. -/
theorem ReplaysTo.eq_stateAt {k : Nat} {e g : State}
    (h : HoldsChain (hashHeader lib) db row c genesis work)
    (hgenesis : c.genesisHash = GENESIS_HASH)
    (hg : genesisStateFromRecord (hashHeader lib) genesis c.genesisHash = .ok g)
    (hk : k ≤ c.headers.length) (hbound : k < 2 ^ 32) (hreplay : ReplaysTo lib db k e) :
    e = c.stateAt (hashHeader lib) g k := by
  obtain ⟨genesis', g', w, hgenesis', hg', hw, -, hrun⟩ := hreplay
  obtain rfl : genesis' = genesis :=
    Except.ok.inj (hgenesis'.symm.trans (h.loadHeaderRecord (Nat.zero_le _) h.genesisRow))
  rw [hgenesis, hg'] at hg
  obtain rfl : g' = g := Except.ok.inj hg
  have hmin : 0 + min k (c.headers.length - 0) = k := by omega
  have hwitness := h.loadHeaderBatchWitness (Nat.zero_le _) k
  rw [Nat.zero_add, hw] at hwitness
  obtain rfl := Except.ok.inj hwitness
  have hfits : 0 + min k (c.headers.length - 0) < 2 ^ 32 := by omega
  have hchain := h.applyHeaders (hgenesis ▸ hg') (Nat.zero_le _) hfits
  rw [hmin] at hchain
  exact (Prod.mk.inj (Except.ok.inj (hrun.symm.trans hchain))).1

/-- There no headers collide that matter. -/
theorem noCollision_of_holdsChain (h : HoldsChain (hashHeader lib) db row c genesis work)
    (hgenesis : c.genesisHash = GENESIS_HASH) (hbound : c.headers.length + 1 < 2 ^ 32) :
    NoCollision lib db genesis.header where
  genesisHash := hgenesis ▸ h.genesisHash
  genesisBits := h.genesisBits
  genesis record hrecord := by
    rw [h.loadHeaderRecord (Nat.zero_le _) h.genesisRow] at hrecord
    rw [Except.ok.inj hrecord, Set.pair_eq_singleton]
    exact Set.injOn_singleton _ _
  tip k record e hrecord hreplay := by
    obtain ⟨g, hg⟩ := h.exists_genesis
    have hlt := hreplay.lt (heights_of_holdsChain h hbound)
    have hk : k ≤ c.headers.length := Nat.le_of_lt_succ hlt
    have hstate := h.stateFromDbAtHeight hg hk (hlt.trans hbound)
    obtain ⟨record', hrecord', hheader⟩ := stateFromDbAtHeight_record hstate
    rw [UInt32.toNat_ofNat_of_lt' (hlt.trans hbound)] at hrecord'
    obtain rfl : record = record' := Except.ok.inj (hrecord.symm.trans hrecord')
    rw [hheader, hreplay.eq_stateAt h hgenesis hg hk (hlt.trans hbound), Set.pair_eq_singleton]
    exact Set.injOn_singleton _ _

end Chain

/-! ## One batch -/

/-- Where a session may start: at genesis, or from a proof whose claim is that of a replay. -/
inductive FollowsReplay (host : Machine Files Inner Vk) (db : Table) (files : Files) :
    Option PathBuf → Nat → Prop
  | genesis : FollowsReplay host db files none 0
  | proof {path : PathBuf} {proof : ProofWithPublicValues Inner} {digest : Bytes32}
      {verifierKey : VerifierKeyDigest} {e : State} {k : Nat} :
      host.fs.load files path = .ok proof →
      HeaderChainPublicValues.parse proof.publicValues =
        .ok (.success e.publicClaim digest verifierKey) →
      ReplaysTo host.lib db k e → FollowsReplay host db files (some path) k

/-- A proof file that certifies the replay up to a height: it verifies, and its public values are
those of a success with the claim and the continuation digest of the state the replay ends in.
The claim is also what the database has for the height. -/
def CertifiedFile (host : Machine Files Inner Vk) (config : ProofGenerationConfig) (db : Table)
    (files : Files) (path : PathBuf) (height : UInt32) : Prop :=
  ∃ prover proof e, host.sdk.setup config.proverBackend config.cudaDeviceId = .ok prover ∧
    host.fs.load files path = .ok proof ∧ prover.verify proof = .ok () ∧
    ReplaysTo host.lib db height.toNat e ∧
    loadPublicClaim db height.toNat GENESIS_HASH = .ok e.publicClaim ∧
    proof.publicValues = (MinimalPublicValues.success e.publicClaim
      (continuationDigestFromState host.lib e) (host.sdk.hashU32 prover.verifyingKey)).toBytes

section Batch

variable {host : Machine Files Inner Vk} {config : ProofGenerationConfig} {db : Table}
  {files files' : Files} {row : Nat → Row} {n k : Nat} {genesisHeader : Header}
  {prevProofPath : Option PathBuf}

theorem FollowsReplay.mono (h : FollowsReplay host db files prevProofPath k)
    (hkeep : ∀ path proof, host.fs.load files path = .ok proof →
      host.fs.load files' path = .ok proof) : FollowsReplay host db files' prevProofPath k := by
  cases h with
  | genesis => exact .genesis
  | proof hload hparse hreplay => exact .proof (hkeep _ _ hload) hparse hreplay

theorem CertifiedFile.of_load {path : PathBuf} {height : UInt32}
    (h : CertifiedFile host config db files path height)
    (hkeep : ∀ proof, host.fs.load files path = .ok proof → host.fs.load files' path = .ok proof) :
    CertifiedFile host config db files' path height := by
  obtain ⟨prover, proof, e, hsetup, hload, hrest⟩ := h
  exact ⟨prover, proof, e, hsetup, hkeep proof hload, hrest⟩

/-- A certified file can be resumed from. -/
theorem CertifiedFile.follows {path : PathBuf} {height : UInt32}
    (h : CertifiedFile host config db files path height) :
    FollowsReplay host db files (some path) height.toNat := by
  obtain ⟨prover, proof, e, -, hload, -, hreplay, -, hvalues⟩ := h
  have hparse := HeaderChainPublicValues.parse_success e.publicClaim
    (continuationDigestFromState host.lib e) (host.sdk.hashU32 prover.verifyingKey)
  rw [← hvalues] at hparse
  exact .proof hload hparse hreplay

/-- A batch is prepared from the state the replay ends in, whatever the rows hold. -/
theorem ReplaysTo.currentState {previousProof : Option (ProofWithPublicValues Inner)} {s : State}
    (hrows : Heights db row n) (hcollision : NoCollision host.lib db genesisHeader)
    (hstart : FollowsReplay host db files prevProofPath k)
    (hprevious : loadOptionalProof (host.fs.load files) prevProofPath = .ok previousProof)
    (hcurrent : resolveCurrentState host.lib db GENESIS_HASH none previousProof = .ok s) :
    ReplaysTo host.lib db k s := by
  cases hstart with
  | genesis =>
    rw [← Except.ok.inj hprevious] at hcurrent
    exact replaysTo_zero (mapError_ok.1 hcurrent)
  | @proof path proof digest verifierKey e _ hload hparse hreplay =>
    have hsome : loadOptionalProof (host.fs.load files) (some path) = .ok (some proof) := by
      rw [loadOptionalProof, hload]
      rfl
    rw [← Except.ok.inj (hsome.symm.trans hprevious)] at hcurrent
    obtain ⟨claim, hclaim, hcurrent⟩ := bind_ok.1 hcurrent
    have hclaim' : e.publicClaim = claim := by
      have h := mapError_ok.1 hclaim
      unfold previousClaim at h
      rw [hparse] at h
      exact Except.ok.inj h
    subst hclaim'
    split at hcurrent
    · cases hcurrent
    obtain ⟨state, hstate, hcurrent⟩ := bind_ok.1 hcurrent
    split at hcurrent
    · cases hcurrent
    rename_i heq
    rw [← Except.ok.inj hcurrent]
    have hheight : e.publicClaim.height = UInt32.ofNat k := hreplay.height
    have hstate' := mapError_ok.1 hstate
    rw [hheight] at hstate'
    rw [hreplay.eq_of_claim hrows hcollision hstate' (not_not.1 heq)]
    exact hreplay

/-- **A prepared batch prolongs the replay.** -/
theorem ReplaysTo.batch {batch : PreparedBatch Inner} (hrows : Heights db row n)
    (hcollision : NoCollision host.lib db genesisHeader)
    (hstart : FollowsReplay host db files prevProofPath k)
    (hspec : batch.Spec host.lib (host.fs.load files) db GENESIS_HASH prevProofPath none
      config.numHeaders) :
    ReplaysTo host.lib db batch.endHeight.toNat batch.expectedState ∧
      batch.firstNewHeight.toNat = k + 1 ∧ k < batch.endHeight.toNat := by
  have hreplay := ReplaysTo.currentState hrows hcollision hstart hspec.previousProof
    hspec.currentState
  have hlt := hreplay.lt hrows
  have hfits := hrows.fits
  have hheight : batch.currentState.height.toNat = k := by
    rw [hreplay.height]
    exact UInt32.toNat_ofNat_of_lt' (hlt.trans hfits)
  have hfirst : batch.firstNewHeight.toNat = k + 1 := by
    rw [hspec.firstNewHeight, toNat_add_one (by omega), hheight]
  have hwitness := hspec.witness
  rw [hfirst] at hwitness
  have hnext : ReplaysTo host.lib db (k + batch.headers.length) batch.expectedState :=
    hreplay.extend hrows hwitness (computeFinalStateWithHints_ok.1 hspec.replay)
  have hlt' := hnext.lt hrows
  have hpos : 0 < batch.headers.length := List.length_pos_iff.2 hspec.headers
  have hend : batch.endHeight.toNat = k + batch.headers.length := by
    have hlen : (UInt32.ofNat batch.headers.length).toNat = batch.headers.length :=
      UInt32.toNat_ofNat_of_lt' (show batch.headers.length < 2 ^ 32 by omega)
    rw [hspec.endHeight, UInt32.toNat_add, hlen, hheight, Nat.mod_eq_of_lt (hlt'.trans hfits)]
  exact ⟨hend ▸ hnext, hfirst, by omega⟩

theorem getPreparedProver_setup {proverBackend : ProverBackend} {cudaDeviceId : Option UInt32}
    {prepared : PreparedProver Inner Vk}
    (h : getPreparedProver host proverBackend cudaDeviceId = .ok prepared) :
    host.sdk.setup proverBackend cudaDeviceId = .ok prepared.prover := by
  unfold getPreparedProver at h
  split at h
  · cases h
  · obtain ⟨prover, hsetup, h⟩ := bind_ok.1 h
    rw [← Except.ok.inj h]
    exact mapError_ok.1 hsetup

/-- **What a proof that is returned says**, whoever made it. -/
theorem generateCompressedProof_ok {lib : HashLibrary} {hashU32 : Vk → VerifierKeyDigest}
    {prover : Prover Inner Vk} {batch : PreparedBatch Inner} {proof : ProofWithPublicValues Inner}
    (h : generateCompressedProof lib hashU32 prover batch = .ok proof) :
    prover.verify proof = .ok () ∧
      proof.publicValues = (MinimalPublicValues.success batch.expectedState.publicClaim
        batch.expectedContinuationDigest (hashU32 prover.verifyingKey)).toBytes := by
  unfold generateCompressedProof executeBatchWithProver at h
  obtain ⟨executed, hexecuted, h⟩ := bind_ok.1 h
  obtain ⟨input, hinput, hexecuted⟩ := bind_ok.1 hexecuted
  obtain ⟨_, -, hexecuted⟩ := bind_ok.1 hexecuted
  obtain rfl : input = executed := Except.ok.inj hexecuted
  obtain ⟨_, -, hfor⟩ := proverInput_for hinput
  obtain ⟨proved, -, h⟩ := bind_ok.1 h
  obtain ⟨_, hvalues, h⟩ := bind_ok.1 h
  obtain ⟨_, hverify, h⟩ := bind_ok.1 h
  obtain rfl : proved = proof := Except.ok.inj h
  refine ⟨mapError_ok.1 hverify, ?_⟩
  rw [← hfor.expectedPv]
  unfold verifyPublicValues at hvalues
  split at hvalues
  · split at hvalues
    · cases hvalues
    · rename_i heq
      exact not_not.1 heq
  · cases hvalues
  · cases hvalues

/-- **One batch certifies the replay up to its end**, and keeps the files of other batches. -/
theorem runSingleBatch_certifies {artifacts : ProofArtifacts Inner}
    (hretains : host.fs.Retains config.outputDir) (hexec : config.executeOnly = false)
    (htrusted : config.trustedStartHeight = none) (hrows : Heights db row n)
    (hcollision : NoCollision host.lib db genesisHeader)
    (hstart : FollowsReplay host db files config.prevProofPath k)
    (h : runSingleBatch host config db files = .ok (artifacts, files')) :
    WritesOwn host config.outputDir files files' artifacts ∧
      CertifiedFile host config db files' (compressedFile config.outputDir
        artifacts.firstNewHeight artifacts.endHeight) artifacts.endHeight ∧
      artifacts.firstNewHeight.toNat = k + 1 ∧ k < artifacts.endHeight.toNat := by
  obtain ⟨prepared, batch, proof, hprepared, hbatch, hproof, hsaved⟩ :=
    runSingleBatch_parts hexec h
  have hsetup := getPreparedProver_setup hprepared
  have hspec := configuredBatch_ok.1 hbatch
  rw [htrusted] at hspec
  obtain ⟨hreplay, hfirst, hlt⟩ := ReplaysTo.batch hrows hcollision hstart hspec
  obtain ⟨hverify, hvalues⟩ := generateCompressedProof_ok hproof
  obtain ⟨hown, hfirst', hend', hload⟩ := saveProofs_frame hretains hsaved
  rw [hspec.digest] at hvalues
  rw [hfirst', hend']
  exact ⟨hown, ⟨prepared.prover, proof, _, hsetup, hload, hverify,
    hreplay, hspec.endClaim, hvalues⟩, hfirst, hlt⟩

end Batch

/-! ## A session -/

/-- Batches that follow each other without gap, from the block after `H` to the block `last`. -/
inductive Consecutive (H : Nat) : List (ProofArtifacts Inner) → Nat → Prop
  | nil : Consecutive H [] H
  | concat {completed : List (ProofArtifacts Inner)} {last : Nat}
      {artifacts : ProofArtifacts Inner} : Consecutive H completed last →
      artifacts.firstNewHeight.toNat = last + 1 → last < artifacts.endHeight.toNat →
      Consecutive H (completed ++ [artifacts]) artifacts.endHeight.toNat

theorem Consecutive.firstNewHeight_le {H last : Nat} {completed : List (ProofArtifacts Inner)}
    (h : Consecutive H completed last) {artifacts : ProofArtifacts Inner}
    (hmem : artifacts ∈ completed) : artifacts.firstNewHeight.toNat ≤ last := by
  induction h with
  | nil => cases hmem
  | concat _ hfirst hlt ih =>
    rcases List.mem_append.1 hmem with hmem | hmem
    · exact (ih hmem).trans hlt.le
    · rw [List.mem_singleton.1 hmem, hfirst]
      exact hlt

section Session

variable {host : Machine Files Inner Vk} {config : ProofGenerationConfig} {db : Table}
  {files₀ : Files} {row : Nat → Row} {n H : Nat} {genesisHeader : Header} {outDir : PathBuf}
  {s : SessionState Files} {completed : List (ProofArtifacts Inner)}

/-- What holds in every state of a proving session. -/
structure CertifiedSession (host : Machine Files Inner Vk) (config : ProofGenerationConfig)
    (db : Table) (outDir : PathBuf) (H last : Nat) (s : SessionState Files)
    (completed : List (ProofArtifacts Inner)) : Prop where
  consecutive : Consecutive H completed last
  trusted : s.trustedStartHeight = none
  follows : FollowsReplay host db s.files s.currentPrevProof last
  certified : ∀ artifacts ∈ completed,
    artifacts.compressedPath =
      some (compressedFile outDir artifacts.firstNewHeight artifacts.endHeight) ∧
    CertifiedFile host config db s.files
      (compressedFile outDir artifacts.firstNewHeight artifacts.endHeight) artifacts.endHeight

/-- One turn of the loop. -/
theorem CertifiedSession.turn {last : Nat} {files files' : Files}
    {artifacts : ProofArtifacts Inner} (hretains : host.fs.Retains outDir)
    (hexec : config.executeOnly = false) (hrows : Heights db row n)
    (hcollision : NoCollision host.lib db genesisHeader)
    (h : CertifiedSession host config db outDir H last s completed)
    (hdir : host.fs.createDirAll outDir s.files = .ok files)
    (hrun : runSingleBatch host (s.batchConfig config outDir) db files = .ok (artifacts, files')) :
    CertifiedSession host config db outDir H artifacts.endHeight.toNat
      (s.next config artifacts files') (completed ++ [artifacts]) := by
  have hkept := hretains.createDirAll _ _ hdir
  have hstart : FollowsReplay host db files (s.batchConfig config outDir).prevProofPath last :=
    h.follows.mono hkept
  have hretains' : host.fs.Retains (s.batchConfig config outDir).outputDir := hretains
  obtain ⟨hown, hfile, hfirst, hlt⟩ :=
    runSingleBatch_certifies hretains' hexec h.trusted hrows hcollision hstart hrun
  have hcertified : CertifiedFile host config db files' (compressedFile outDir
      artifacts.firstNewHeight artifacts.endHeight) artifacts.endHeight := hfile
  have hpath : artifacts.compressedPath =
      some (compressedFile outDir artifacts.firstNewHeight artifacts.endHeight) := hown.path
  rw [SessionState.next_of_proving hexec]
  refine ⟨.concat h.consecutive hfirst hlt, rfl, ?_, fun other hmem => ?_⟩
  · show FollowsReplay host db files' artifacts.compressedPath artifacts.endHeight.toNat
    rw [hpath]
    exact hcertified.follows
  · rcases List.mem_append.1 hmem with hmem | hmem
    -- an earlier batch: its file is not one of this batch
    · obtain ⟨hpath', hcertified'⟩ := h.certified other hmem
      have hle := h.consecutive.firstNewHeight_le hmem
      refine ⟨hpath', hcertified'.of_load fun proof hload => ?_⟩
      exact hown.kept _ _ _ (fun heq => by rw [heq] at hle; omega) (hkept _ _ hload)
    · rw [List.mem_singleton.1 hmem]
      exact ⟨hpath, hcertified⟩

theorem Session.certified (hretains : host.fs.Retains outDir) (hexec : config.executeOnly = false)
    (hrows : Heights db row n) (hcollision : NoCollision host.lib db genesisHeader)
    (hstart : FollowsReplay host db files₀ config.prevProofPath H)
    (hs : Session host config db outDir files₀ s completed) :
    ∃ last, CertifiedSession host config db outDir H last s completed := by
  induction hs with
  | start => exact ⟨H, .nil, rfl, hstart, fun _ hmem => nomatch hmem⟩
  | turn _ _ hdir hrun ih =>
    obtain ⟨last, h⟩ := ih
    exact ⟨_, h.turn hretains hexec hrows hcollision hdir hrun⟩

/-- **Whatever the prover returns and whatever the rows hold, a session certifies replays only.**
In every state a proving session reaches, started at genesis or from a proof of a replay, its
batches follow each other without gap, and the file of each batch holds a proof that verifies and
whose public values are those of the replay of all rows up to its last block. -/
theorem session_certifies (h : Reached host files₀ config db s completed)
    (hexec : config.executeOnly = false) (hretains : host.fs.Retains (sessionOutDir host config))
    (hrows : Heights db row n) (hcollision : NoCollision host.lib db genesisHeader)
    (hstart : FollowsReplay host db files₀ config.prevProofPath H) :
    ∃ last, Consecutive H completed last ∧ ∀ artifacts ∈ completed,
      artifacts.compressedPath = some (compressedFile (sessionOutDir host config)
        artifacts.firstNewHeight artifacts.endHeight) ∧
      CertifiedFile host config db s.files (compressedFile (sessionOutDir host config)
        artifacts.firstNewHeight artifacts.endHeight) artifacts.endHeight := by
  obtain ⟨last, hsession⟩ := h.session.certified hretains hexec hrows hcollision hstart
  exact ⟨last, hsession.consecutive, hsession.certified⟩

/-- The two blocks of the main chain. -/
theorem session_certifies_mainnet : ∃ s completed last,
    Reached provingMachine [] provingConfig mainnetTable s completed ∧ completed.length = 2 ∧
      Consecutive 0 completed last ∧ ∀ artifacts ∈ completed,
        CertifiedFile provingMachine provingConfig mainnetTable s.files
          (compressedFile (sessionOutDir provingMachine provingConfig) artifacts.firstNewHeight
            artifacts.endHeight) artifacts.endHeight := by
  obtain ⟨s, completed, h, hlen, -⟩ := provingSession_mainnet (Nat.le_refl 2)
  obtain ⟨last, hconsecutive, hcertified⟩ := session_certifies h.reached h.proving
    h.works.files.retains (heights_of_holdsChain mainnet_holdsChain (by decide))
    (noCollision_of_holdsChain mainnet_holdsChain rfl (by decide)) .genesis
  exact ⟨s, completed, last, h.reached, hlen, hconsecutive, fun artifacts hmem =>
    (hcertified artifacts hmem).2⟩

/-! ## What the files say -/

/-- A state of a proving session that started at genesis or after a replay, on a table with one row
for every height and a file system that keeps what was saved. -/
structure ReplaySession (host : Machine Files Inner Vk) (files₀ : Files)
    (config : ProofGenerationConfig) (db : Table) (s : SessionState Files)
    (completed : List (ProofArtifacts Inner)) : Prop where
  reached : Reached host files₀ config db s completed
  proving : config.executeOnly = false
  retains : host.fs.Retains (sessionOutDir host config)
  heights : ∃ row n, Heights db row n
  noCollision : ∃ genesisHeader, NoCollision host.lib db genesisHeader
  start : ∃ H, FollowsReplay host db files₀ config.prevProofPath H

theorem ReplaySession.certified (h : ReplaySession host files₀ config db s completed)
    {artifacts : ProofArtifacts Inner} (hmem : artifacts ∈ completed) :
    CertifiedFile host config db s.files (compressedFile (sessionOutDir host config)
      artifacts.firstNewHeight artifacts.endHeight) artifacts.endHeight := by
  obtain ⟨row, n, hrows⟩ := h.heights
  obtain ⟨genesisHeader, hcollision⟩ := h.noCollision
  obtain ⟨H, hstart⟩ := h.start
  obtain ⟨last, hsession⟩ :=
    h.reached.session.certified h.retains h.proving hrows hcollision hstart
  exact (hsession.certified artifacts hmem).2

/-- Replaying the same headers ends in the same state, whatever the hints and the other columns
are. -/
theorem ReplaysTo.unique {lib : HashLibrary} {db db' : Table} {k : Nat} {e e' : State}
    (h : ReplaysTo lib db k e) (h' : ReplaysTo lib db' k e')
    (hgenesis : loadHeaderRecord db' 0 = loadHeaderRecord db 0)
    (hheaders : loadNewHeaders db' 1 k = loadNewHeaders db 1 k) : e' = e := by
  obtain ⟨genesis, g, w, hrecord, hg, hw, -, hrun⟩ := h
  obtain ⟨genesis', g', w', hrecord', hg', hw', -, hrun'⟩ := h'
  obtain rfl : genesis' = genesis :=
    Except.ok.inj (hrecord'.symm.trans (hgenesis.trans hrecord))
  obtain rfl : g' = g := Except.ok.inj (hg'.symm.trans hg)
  have hsame : w'.headers = w.headers := by
    unfold loadNewHeaders at hheaders
    rw [hw, hw'] at hheaders
    exact Except.ok.inj hheaders
  have hfold := (applyHeaders_ok.1 hrun').2
  rw [hsame, (applyHeaders_ok.1 hrun).2] at hfold
  exact (Except.ok.inj hfold).symm

/-- **Proof files with one last block say the same.**  Take any two proving sessions, at any of
their states, over the same headers up to a block and with one key for the guest.  Wherever a batch
of the first and a batch of the second end at this block, however the sessions cut what is before
it into batches, both files hold a proof that verifies, and both proofs have the same public
values: those of a success with the claim that both databases have for the block. -/
theorem proofFile_says {Files' Inner' Vk' : Type} {host' : Machine Files' Inner' Vk'}
    {files₀' : Files'} {config' : ProofGenerationConfig} {db' : Table} {s' : SessionState Files'}
    {completed' : List (ProofArtifacts Inner')}
    (h : ReplaySession host files₀ config db s completed)
    (h' : ReplaySession host' files₀' config' db' s' completed') (hlib : host'.lib = host.lib)
    (hkey : ∀ prover prover',
      host.sdk.setup config.proverBackend config.cudaDeviceId = .ok prover →
      host'.sdk.setup config'.proverBackend config'.cudaDeviceId = .ok prover' →
      host'.sdk.hashU32 prover'.verifyingKey = host.sdk.hashU32 prover.verifyingKey)
    {artifacts : ProofArtifacts Inner} (hmem : artifacts ∈ completed)
    {artifacts' : ProofArtifacts Inner'} (hmem' : artifacts' ∈ completed')
    (hend : artifacts'.endHeight = artifacts.endHeight)
    (hgenesis : loadHeaderRecord db' 0 = loadHeaderRecord db 0)
    (hheaders : loadNewHeaders db' 1 artifacts.endHeight.toNat =
      loadNewHeaders db 1 artifacts.endHeight.toNat) :
    ∃ prover proof prover' proof' claim digest,
      host.sdk.setup config.proverBackend config.cudaDeviceId = .ok prover ∧
      host.fs.load s.files (compressedFile (sessionOutDir host config)
        artifacts.firstNewHeight artifacts.endHeight) = .ok proof ∧
      prover.verify proof = .ok () ∧
      host'.sdk.setup config'.proverBackend config'.cudaDeviceId = .ok prover' ∧
      host'.fs.load s'.files (compressedFile (sessionOutDir host' config')
        artifacts'.firstNewHeight artifacts'.endHeight) = .ok proof' ∧
      prover'.verify proof' = .ok () ∧
      proof'.publicValues = proof.publicValues ∧
      HeaderChainPublicValues.parse proof.publicValues =
        .ok (.success claim digest (host.sdk.hashU32 prover.verifyingKey)) ∧
      loadPublicClaim db artifacts.endHeight.toNat GENESIS_HASH = .ok claim ∧
      loadPublicClaim db' artifacts.endHeight.toNat GENESIS_HASH = .ok claim := by
  obtain ⟨prover, proof, e, hsetup, hload, hverify, hreplay, hclaim, hvalues⟩ := h.certified hmem
  obtain ⟨prover', proof', e', hsetup', hload', hverify', hreplay', hclaim', hvalues'⟩ :=
    h'.certified hmem'
  rw [hend, hlib] at hreplay'
  obtain rfl : e' = e := hreplay.unique hreplay' hgenesis hheaders
  rw [hend] at hclaim'
  rw [hlib, hkey prover prover' hsetup hsetup', ← hvalues] at hvalues'
  refine ⟨prover, proof, prover', proof', e'.publicClaim, continuationDigestFromState host.lib e',
    hsetup, hload, hverify, hsetup', hload', hverify', hvalues', ?_, hclaim, hclaim'⟩
  rw [hvalues]
  exact HeaderChainPublicValues.parse_success _ _ _

/-- Both blocks in one batch. -/
def wideEnv : EnvSource := fun name =>
  if name = ENV_ZKPOW_BATCH_SIZE then .ok "2" else .error .notPresent

def wideConfig : ProofGenerationConfig := { provingConfig with numHeaders := 2 }

def wideMachine : Machine (List (PathBuf × ProofWithPublicValues Unit)) Unit Unit :=
  { provingMachine with env := wideEnv }

theorem wideMachine_works (outDir : PathBuf) :
    wideMachine.Works .reference wideConfig outDir mainnetProver :=
  { provingMachine_works outDir with }

theorem replaySession_of_proving {host : Machine Files Inner Vk} {files₀ : Files}
    {config : ProofGenerationConfig} {prover : Prover Inner Vk} {s : SessionState Files}
    {completed : List (ProofArtifacts Inner)}
    (h : ProvingSession .reference host files₀ config mainnetTable prover mainnetChain
      ⟨0, mainnetHeader 0, mainnetWork 0, mainnetMedian 0⟩ 0 s completed)
    (hlib : host.lib = .reference) (hprev : config.prevProofPath = none) :
    ReplaySession host files₀ config mainnetTable s completed where
  reached := h.reached
  proving := h.proving
  retains := h.works.files.retains
  heights := ⟨_, _, heights_of_holdsChain mainnet_holdsChain (by decide)⟩
  noCollision := by
    rw [hlib]
    exact ⟨_, noCollision_of_holdsChain mainnet_holdsChain rfl (by decide)⟩
  start := by
    rw [hprev]
    exact ⟨0, .genesis⟩

/-- Two batches of one block, and one batch of two: the files of the second block. -/
theorem proofFile_says_mainnet : ∃ files files' proof proof' claim digest,
    provingMachine.fs.load files
        (compressedFile (sessionOutDir provingMachine provingConfig) 2 2) = .ok proof ∧
      wideMachine.fs.load files'
        (compressedFile (sessionOutDir wideMachine wideConfig) 1 2) = .ok proof' ∧
      proof'.publicValues = proof.publicValues ∧
      HeaderChainPublicValues.parse proof.publicValues =
        .ok (.success claim digest exampleKey) ∧
      loadPublicClaim mainnetTable 2 GENESIS_HASH = .ok claim := by
  obtain ⟨s, completed, h, hlen, hheights⟩ := provingSession_mainnet (Nat.le_refl 2)
  obtain ⟨s', completed', h', hlen', hheights'⟩ :=
    exists_provingSession (n := 1) [] (wideMachine_works _) (by decide +kernel) rfl rfl rfl rfl
      (by decide)
  have hk : 1 < completed.length := by omega
  have hk' : 0 < completed'.length := by omega
  have hfirst : completed[1].firstNewHeight = 2 := UInt32.toNat_inj.1 (hheights 1 hk).1
  have hend : completed[1].endHeight = 2 := UInt32.toNat_inj.1 (hheights 1 hk).2
  have hfirst' : completed'[0].firstNewHeight = 1 := UInt32.toNat_inj.1 (hheights' 0 hk').1
  have hend' : completed'[0].endHeight = 2 := UInt32.toNat_inj.1 (hheights' 0 hk').2
  obtain ⟨_, proof, _, proof', claim, digest, -, hload, -, -, hload', -, hvalues, hparse, hclaim,
      -⟩ :=
    proofFile_says (replaySession_of_proving h rfl rfl) (replaySession_of_proving h' rfl rfl) rfl
      (fun _ _ _ _ => rfl) (List.getElem_mem hk) (List.getElem_mem hk') (hend'.trans hend.symm)
      rfl rfl
  rw [hfirst, hend] at hload
  rw [hfirst', hend'] at hload'
  rw [hend] at hclaim
  exact ⟨s.files, s'.files, proof, proof', claim, digest, hload, hload', hvalues, hparse, hclaim⟩

/-! ## What was proved -/

section Proved

variable {sys : Sha256Syscalls} {K : VerifierKeyDigest} {history : List (HaltedRun sys)}

/-- A run that commits the public values of a replay accepted the headers of the rows, on top of
the genesis block, with the runs it descends from; or the headers collide. -/
theorem ReplaysTo.proved {k : Nat} {e : State} {digest : Bytes32} {run : GuestRun sys}
    (hsys : sys.Fips) (hlib : host.lib.Fips) (hhistory : History K history)
    (hcont : Set.InjOn Sha256.hash {b | HashedContinuation history b})
    (hpv : Set.InjOn Sha256.hash {b | HashedPublicValues history b})
    (hshort : ∀ anchor headers run, Grounded history anchor headers run →
      headers.length < 2 ^ 32)
    (hreplay : ReplaysTo host.lib db k e) (hk : k < 2 ^ 32) (hrun : .guest run ∈ history)
    (hkey : run.pcs.verifierKey = K)
    (hcommitted : run.committed = (MinimalPublicValues.success e.publicClaim digest K).toBytes) :
    ∃ genesis g w anchor headers, loadHeaderRecord db 0 = .ok genesis ∧
      genesisStateFromRecord (hashHeader host.lib) genesis GENESIS_HASH = .ok g ∧
      loadHeaderBatchWitness db 1 k = .ok w ∧ Grounded history anchor headers run ∧
      ((headers = w.headers ∧ anchor.blockHash = GENESIS_HASH) ∨
        Collision (hashHeader host.lib) (headerChain (hashHeader host.lib) anchor headers)
          (headerChain (hashHeader host.lib) g w.headers)) := by
  have hheight : e.height.toNat = k := by
    rw [hreplay.height]
    exact UInt32.toNat_ofNat_of_lt' hk
  obtain ⟨genesis, g, w, hgenesis, hg, hw, hlen, happly⟩ := hreplay
  obtain ⟨anchor, headers, final, hground⟩ :=
    grounded_of_history hsys hhistory hcont hpv run hrun hkey
  obtain ⟨hclaim, -, -⟩ := committed_fields run hcommitted
  have hfinal : final.publicClaim = e.publicClaim := by
    rw [hground.agrees.publicClaim, hclaim, MinimalPublicValues.success,
      U256.fromLeBytes_toLeBytes]
  have hlen' : headers.length = w.headers.length := by
    rw [← hground.toNat_height (hshort _ _ _ hground.grounded), hlen, ← hheight]
    exact congrArg (fun claim : Claim => claim.height.toNat) hfinal
  have happlied := hground.applied
  rw [← hashHeader_eq_guest hsys hlib] at happlied
  have hgenesisBlock : g.blockHash = GENESIS_HASH := by
    obtain ⟨-, _, -, rfl⟩ := genesisStateFromRecord_ok.1 hg
    rfl
  refine ⟨genesis, g, w, anchor, headers, hgenesis, hg, hw, hground.grounded, ?_⟩
  exact (headers_eq_of_tip hlen' happlied (applyHeaders_ok.1 happly).2
    (congrArg Claim.tipHash hfinal)).imp_left fun hsame =>
      ⟨hsame.1, hsame.2.trans hgenesisBlock⟩

/-- **An untrusted prover proves the rows or finds a collision.**  In every state a proving session
reaches, take the proof in the file of any batch.  If a run of the guest committed its public
values, which is what SP1 verification stands for, then the headers that the run and those it
descends from accepted are the rows up to the last block of the batch, and they were accepted on
top of the genesis block; or two different headers of theirs have one hash. -/
theorem session_proves_rows (hsys : sys.Fips) (hlib : host.lib.Fips)
    (hhistory : History K history)
    (hcont : Set.InjOn Sha256.hash {b | HashedContinuation history b})
    (hpv : Set.InjOn Sha256.hash {b | HashedPublicValues history b})
    (hshort : ∀ anchor headers run, Grounded history anchor headers run →
      headers.length < 2 ^ 32)
    (h : Reached host files₀ config db s completed) (hexec : config.executeOnly = false)
    (hretains : host.fs.Retains (sessionOutDir host config)) (hrows : Heights db row n)
    (hcollision : NoCollision host.lib db genesisHeader)
    (hstart : FollowsReplay host db files₀ config.prevProofPath H)
    {artifacts : ProofArtifacts Inner} (hmem : artifacts ∈ completed)
    {proof : ProofWithPublicValues Inner}
    (hload : host.fs.load s.files (compressedFile (sessionOutDir host config)
      artifacts.firstNewHeight artifacts.endHeight) = .ok proof)
    {run : GuestRun sys} (hrun : .guest run ∈ history) (hkey : run.pcs.verifierKey = K)
    (hcommitted : run.committed = proof.publicValues) :
    ∃ genesis g w anchor headers, loadHeaderRecord db 0 = .ok genesis ∧
      genesisStateFromRecord (hashHeader host.lib) genesis GENESIS_HASH = .ok g ∧
      loadHeaderBatchWitness db 1 artifacts.endHeight.toNat = .ok w ∧
      Grounded history anchor headers run ∧
      ((headers = w.headers ∧ anchor.blockHash = GENESIS_HASH) ∨
        Collision (hashHeader host.lib) (headerChain (hashHeader host.lib) anchor headers)
          (headerChain (hashHeader host.lib) g w.headers)) := by
  obtain ⟨last, hsession⟩ := h.session.certified hretains hexec hrows hcollision hstart
  obtain ⟨-, prover, proof', e, -, hload', -, hreplay, -, hvalues⟩ :=
    hsession.certified artifacts hmem
  obtain rfl : proof = proof' := Except.ok.inj (hload.symm.trans hload')
  rw [hvalues] at hcommitted
  have hverifierKey : host.sdk.hashU32 prover.verifyingKey = run.pcs.verifierKey :=
    (committed_fields run hcommitted).2.2
  rw [hverifierKey, hkey] at hcommitted
  exact hreplay.proved hsys hlib hhistory hcont hpv hshort artifacts.endHeight.toNat_lt hrun hkey
    hcommitted

/-- A run from height zero that relies on no proof is a history of its own. -/
theorem history_single {single : GuestRun sys} (hheight : single.state.height = 0)
    (hverify : ∀ vk d, single.verifySp1Proof vk d = false)
    (hlen : single.headers.length < 2 ^ 32) :
    History K [.guest single] ∧
      Set.InjOn Sha256.hash {b | HashedContinuation [.guest single] b} ∧
      Set.InjOn Sha256.hash {b | HashedPublicValues [.guest single] b} ∧
      ∀ anchor headers run, Grounded [.guest single] anchor headers run →
        headers.length < 2 ^ 32 := by
  have hmem : ∀ {run : GuestRun sys}, .guest run ∈ [HaltedRun.guest single] → run = single :=
    fun hrun => HaltedRun.guest.inj (List.mem_singleton.1 hrun)
  have hlow : ¬ 0 < single.pcs.claim.height := by
    rw [← single.claim_eq]
    show ¬ 0 < single.state.height
    rw [hheight]
    decide
  refine ⟨.guest single .nil fun vk d h => ?_, fun a ha b hb _ => ?_, fun a ha b hb _ => ?_,
    fun anchor headers run h => ?_⟩
  · rw [hverify] at h
    cases h
  · have hone : ∀ {b}, HashedContinuation [.guest single] b →
        b = single.lastValid.continuationBytes := fun h => by
      cases h with
      | prior run hrun hpos => exact absurd (hmem hrun ▸ hpos) hlow
      | committed run hrun => rw [hmem hrun]
    exact (hone ha).trans (hone hb).symm
  · have hone : ∀ {b}, HashedPublicValues [.guest single] b → b = single.committed := fun h => by
      cases h with
      | prior run hrun hpos => exact absurd (hmem hrun ▸ hpos) hlow
      | committed run hrun _ => rw [List.mem_singleton.1 hrun, HaltedRun.committed_guest]
    exact (hone ha).trans (hone hb).symm
  · cases h with
    | first run hrun hstate _ =>
      have hle : run.accepted.length ≤ run.headers.length := length_acceptedHeaders_le _ _
      rw [hmem hrun] at hle ⊢
      exact hle.trans_lt hlen
    | next run _ hrun hextends => exact absurd (hmem hrun ▸ hextends.height_pos) hlow

/-- The proof of the first block, and a run of the guest that committed its public values. -/
theorem session_proves_rows_mainnet : ∃ (run : GuestRun .reference) (anchor : State)
    (headers : List NewHeader) (g : State) (w : HeaderBatchWitness),
    loadHeaderBatchWitness mainnetTable 1 1 = .ok w ∧
      Grounded [.guest run] anchor headers run ∧
      ((headers = w.headers ∧ anchor.blockHash = GENESIS_HASH) ∨
        Collision (hashHeader .reference) (headerChain (hashHeader .reference) anchor headers)
          (headerChain (hashHeader .reference) g w.headers)) := by
  obtain ⟨s, completed, h, hlen, hheights⟩ := provingSession_mainnet (show 1 ≤ 2 by decide)
  have hzero : 0 < completed.length := by omega
  have hmem : completed[0] ∈ completed := List.getElem_mem hzero
  have hend : completed[0].endHeight.toNat = 1 := by
    rw [(hheights 0 hzero).2]
    rfl
  have hrows := heights_of_holdsChain mainnet_holdsChain (by decide)
  have hcollision := noCollision_of_holdsChain mainnet_holdsChain rfl (by decide)
  obtain ⟨last, hsession⟩ :=
    h.reached.session.certified h.works.files.retains h.proving hrows hcollision .genesis
  obtain ⟨-, prover, proof, e, -, hload, -, hreplay, -, hvalues⟩ :=
    hsession.certified _ hmem
  -- the run over the one header, from the genesis block
  obtain ⟨genesis, g, w, hgenesis, hg, hw, hcount, happly⟩ := hreplay
  have hheight : g.height = 0 := by
    obtain ⟨-, _, -, rfl⟩ := genesisStateFromRecord_ok.1 hg
    rw [loadHeaderRecord_height (by decide) hgenesis]
    rfl
  obtain ⟨single, rfl, hheaders, hkey, hverify⟩ : ∃ single : GuestRun .reference,
      single.state = g ∧ single.headers = w.headers ∧ single.pcs.verifierKey = exampleKey ∧
      ∀ vk d, single.verifySp1Proof vk d = false := exists_single hheight exampleKey w.headers
  have hcommitted : single.committed = proof.publicValues := by
    have hrun : w.headers.foldlM (acceptHeader (hashHeader .reference)) single.state = .ok e :=
      (applyHeaders_ok.1 happly).2
    rw [hashHeader_eq_guest Sha256Syscalls.reference_fips HashLibrary.reference_fips,
      ← hheaders] at hrun
    rw [hvalues, GuestRun.committed, single.result_eq, hrun, hkey]
    exact congrArg _ (committedPublicValues_success Sha256Syscalls.reference_fips
      HashLibrary.reference_fips _ _)
  obtain ⟨hhistory, hcont, hpv, hshort⟩ :=
    history_single (K := exampleKey) hheight hverify (by rw [hheaders, hcount, hend]; decide)
  obtain ⟨_, g', w', anchor, headers, -, -, hw', hground, hresult⟩ :=
    session_proves_rows h.works.guestFips h.works.hostFips hhistory hcont hpv hshort h.reached
      h.proving h.works.files.retains hrows hcollision .genesis hmem hload
      (List.mem_singleton_self _) hkey hcommitted
  rw [hend] at hw'
  exact ⟨single, anchor, headers, g', w', hw', hground, hresult⟩

end Proved

end Session

end Zkpow.Host
