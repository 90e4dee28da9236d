import Zkpow.SessionSafety

/-!
# How a session ends

`run_batch_session` returns the number of its batches when the limit is reached, and when the text
of an error says that no header is left.  The prover, the SDK and what the rows hold are arbitrary
here too, and the assumptions are those under which a session certifies replays.

* `generateCompressedProof_plain` — no error of the proving path reads like that, unless its text
  comes from outside;
* `prepareBatch_error`, `runSingleBatch_error` — what the error of a batch that reads so means;
* `Session.runBatches_ok` — what a loop that returns has done;
* `runBatchSession_complete` — a session that returns has certified every row, or used up its
  limit.
-/

set_option autoImplicit false

namespace Zkpow.Host

open ByteCodec ExceptFold HashChain KeyedTable

variable {Files Inner Vk : Type}

/-! ## Which errors read like an exhausted table -/

/-- An error that ends a session quietly only if its text comes from outside. -/
def BoxError.Plain (err : BoxError) : Prop :=
  isHeaderExhaustionError err = true → ∃ text, err = .other text

theorem BoxError.Plain.other (text : String) : (BoxError.other text).Plain := fun _ => ⟨text, rfl⟩

/-- The text of an exhausted table begins with an `n`. -/
theorem head_of_exhausted {err : BoxError} (h : isHeaderExhaustionError err = true) :
    err.display.toList.head? = some 'n' := by
  unfold isHeaderExhaustionError at h
  obtain ⟨rest, hrest⟩ := List.isPrefixOf_iff_prefix.1 h
  rw [← hrest, List.head?_append]
  rfl

theorem BoxError.Plain.of_head {err : BoxError} (c : Char)
    (hhead : err.display.toList.head? = some c) (hc : c ≠ 'n') : err.Plain := fun h =>
  absurd (Option.some.inj (hhead.symm.trans (head_of_exhausted h))) hc

theorem head_append {a : String} (b : String) {c : Char} (h : a.toList.head? = some c) :
    (a ++ b).toList.head? = some c := by
  rw [String.toList_append, List.head?_append, h]
  rfl

theorem BoxError.Plain.publicValues (e : PublicValuesParseError) :
    (BoxError.publicValues e).Plain := by
  cases e with
  | invalidLength actual => exact .of_head 'i' (head_append _ rfl) (by decide)
  | unknownErrorCode code => exact .of_head 'u' (head_append _ rfl) (by decide)

/-! ## The errors of a batch -/

section Errors

variable {lib : HashLibrary} {hashU32 : Vk → VerifierKeyDigest} {prover : Prover Inner Vk}
  {batch : PreparedBatch Inner} {err : BoxError}

/-- An outside text is passed on. -/
theorem plain_of_mapError_other {α : Type} {x : Except String α}
    (h : x.mapError BoxError.other = .error err) : err.Plain := by
  obtain ⟨text, -, rfl⟩ := mapError_error.1 h
  exact .other text

/-- The label a check is made under begins its errors. -/
theorem verifyPublicValues_plain {pv expectedPv : Bytes} {label : String} (c : Char)
    (hlabel : label.toList.head? = some c) (hc : c ≠ 'n')
    (h : verifyPublicValues pv expectedPv label = .error err) : err.Plain := by
  unfold verifyPublicValues at h
  split at h
  · split at h
    · obtain rfl := Except.error.inj h
      exact .of_head c
        (head_append _ (head_append _ (head_append _ (head_append _ hlabel)))) hc
    · cases h
  · obtain rfl := Except.error.inj h
    exact .of_head c (head_append _ (head_append _ (head_append _ hlabel))) hc
  · obtain rfl := Except.error.inj h
    exact .publicValues _

theorem executeInput_plain {input : ExecutionInput Inner Vk}
    (h : executeInput prover input = .error err) : err.Plain := by
  unfold executeInput at h
  rcases bind_error.1 h with h | ⟨publicValues, -, h⟩
  · exact plain_of_mapError_other h
  · split at h
    · exact verifyPublicValues_plain 'e' rfl (by decide) h
    · obtain rfl := Except.error.inj h
      exact .of_head 'e' (head_append _ (head_append _ rfl)) (by decide)
    · obtain rfl := Except.error.inj h
      exact .of_head 'e' (head_append _ rfl) (by decide)

theorem proverInput_plain {verifyingKey : Vk}
    (h : proverInput lib hashU32 verifyingKey batch = .error err) : err.Plain := by
  unfold proverInput at h
  rcases bind_error.1 h with h | ⟨⟨verifierKey, proof⟩, -, h⟩
  · unfold buildProof exitCodeOf at h
    split at h
    · rcases bind_error.1 h with h | ⟨_, -, h⟩
      · split at h
        · cases h
        · cases h
        · obtain rfl := Except.error.inj h
          exact .of_head 'f' (head_append _ rfl) (by decide)
      · cases h
    · cases h
  · rcases bind_error.1 h with h | ⟨stdin, -, h⟩
    · unfold buildStdin at h
      split at h
      · split at h
        · cases h
        · obtain rfl := Except.error.inj h
          exact .of_head 'p' rfl (by decide)
      · cases h
    · cases h

theorem proveInput_plain {input : ExecutionInput Inner Vk}
    (h : proveInput prover input = .error err) : err.Plain := by
  unfold proveInput at h
  rcases bind_error.1 h with h | ⟨proof, -, h⟩
  · exact plain_of_mapError_other h
  · rcases bind_error.1 h with h | ⟨_, -, h⟩
    · exact verifyPublicValues_plain 'c' rfl (by decide) h
    · rcases bind_error.1 h with h | ⟨_, -, h⟩
      · exact plain_of_mapError_other h
      · cases h

/-- **No error of the proving path reads like an exhausted table**, outside texts apart. -/
theorem generateCompressedProof_plain
    (h : generateCompressedProof lib hashU32 prover batch = .error err) : err.Plain := by
  unfold generateCompressedProof executeBatchWithProver at h
  rcases bind_error.1 h with h | ⟨input, -, h⟩
  · rcases bind_error.1 h with h | ⟨input, -, h⟩
    · exact proverInput_plain h
    · rcases bind_error.1 h with h | ⟨_, -, h⟩
      · exact executeInput_plain h
      · cases h
  · exact proveInput_plain h

end Errors

section Prepare

variable {lib : HashLibrary} {load : LoadProof Inner} {db : Table} {genesisHash : BlockHash}
  {prevProofPath : Option PathBuf} {trustedStartHeight : Option UInt32} {numHeaders : UInt32}
  {previousProof : Option (ProofWithPublicValues Inner)} {err : BoxError}

/-- A panic is no error. -/
theorem not_error_of_mapError {α β : Type} {f : β → HostPanic} {x : Except β α}
    (h : x.mapError (fun b => HostStop.panic (f b)) = .error (.error err)) : False := by
  obtain ⟨_, -, h⟩ := mapError_error.1 h
  cases h

theorem loadOptionalProof_plain
    (h : loadOptionalProof load prevProofPath = .error (.error err)) : err.Plain := by
  unfold loadOptionalProof at h
  split at h
  · cases h
  · rename_i path
    cases hload : load path with
    | error text =>
      rw [hload] at h
      obtain rfl := HostStop.error.inj (Except.error.inj h)
      exact .other text
    | ok proof =>
      rw [hload] at h
      cases h

theorem resumeFromProof_plain {prevProof : ProofWithPublicValues Inner}
    (h : resumeFromProof lib db genesisHash prevProof = .error (.error err)) : err.Plain := by
  unfold resumeFromProof at h
  rcases bind_error.1 h with h | ⟨claim, -, h⟩
  · obtain ⟨e, hclaim, he⟩ := mapError_error.1 h
    obtain rfl := HostStop.error.inj he
    unfold previousClaim at hclaim
    split at hclaim
    · cases hclaim
    · obtain rfl := Except.error.inj hclaim
      exact .of_head 'p' (head_append _ (head_append _ rfl)) (by decide)
    · obtain rfl := Except.error.inj hclaim
      exact .publicValues _
  · split at h
    · obtain rfl := HostStop.error.inj (Except.error.inj h)
      exact .of_head 'p' rfl (by decide)
    · rcases bind_error.1 h with h | ⟨state, -, h⟩
      · exact (not_error_of_mapError h).elim
      · split at h
        · obtain rfl := HostStop.error.inj (Except.error.inj h)
          exact .of_head 'd' (head_append _ (head_append _ rfl)) (by decide)
        · cases h

theorem resolveCurrentState_plain
    (h : resolveCurrentState lib db genesisHash trustedStartHeight previousProof =
      .error (.error err)) : err.Plain := by
  unfold resolveCurrentState at h
  split at h
  · obtain rfl := HostStop.error.inj (Except.error.inj h)
    exact .of_head 't' rfl (by decide)
  · exact resumeFromProof_plain h
  · exact (not_error_of_mapError h).elim
  · exact (not_error_of_mapError h).elim

theorem simulateExpectedState_plain {s : State} {headers : List NewHeader}
    {hints : List BlockTimestamp} {first last : UInt32}
    (h : simulateExpectedState lib db genesisHash s headers hints first last =
      .error (.error err)) : err.Plain := by
  unfold simulateExpectedState at h
  rcases bind_error.1 h with h | ⟨replayed, -, h⟩
  · exact (not_error_of_mapError h).elim
  rcases bind_error.1 h with h | ⟨claim, -, h⟩
  · exact (not_error_of_mapError h).elim
  split at h
  · cases h
  rcases bind_error.1 h with h | ⟨diverged, -, h⟩
  · exact (not_error_of_mapError h).elim
  rcases bind_error.1 h with h | ⟨expected, -, h⟩
  · exact (not_error_of_mapError h).elim
  obtain rfl := HostStop.error.inj (Except.error.inj h)
  exact .of_head 'h' (head_append _ rfl) (by decide)

/-- Where a batch is to start, the database has no row. -/
def NoRowLeft (lib : HashLibrary) (load : LoadProof Inner) (db : Table) (genesisHash : BlockHash)
    (prevProofPath : Option PathBuf) (trustedStartHeight : Option UInt32) (numHeaders : UInt32) :
    Prop :=
  ∃ previousProof currentState w, loadOptionalProof load prevProofPath = .ok previousProof ∧
    resolveCurrentState lib db genesisHash trustedStartHeight previousProof = .ok currentState ∧
    loadHeaderBatchWitness db (currentState.height + 1).toNat numHeaders.toNat = .ok w ∧
    w.headers = []

/-- **A batch that cannot be prepared** found no row, or its error does not say so. -/
theorem prepareBatch_error
    (h : prepareBatch lib load db genesisHash prevProofPath trustedStartHeight numHeaders =
      .error (.error err)) :
    err.Plain ∨
      NoRowLeft lib load db genesisHash prevProofPath trustedStartHeight numHeaders := by
  unfold prepareBatch at h
  rcases bind_error.1 h with h | ⟨previousProof, hprevious, h⟩
  · exact .inl (loadOptionalProof_plain h)
  rcases bind_error.1 h with h | ⟨currentState, hcurrent, h⟩
  · exact .inl (resolveCurrentState_plain h)
  rcases bind_error.1 h with h | ⟨w, hw, h⟩
  · exact (not_error_of_mapError h).elim
  split at h
  · rename_i hempty
    exact .inr ⟨previousProof, currentState, w, hprevious, hcurrent, mapError_ok.1 hw,
      List.isEmpty_iff.1 hempty⟩
  · rcases bind_error.1 h with h | ⟨expectedState, -, h⟩
    · exact .inl (simulateExpectedState_plain h)
    · cases h

end Prepare

section Batch

variable {host : Machine Files Inner Vk} {config : ProofGenerationConfig} {db : Table}
  {files : Files} {err : BoxError}

/-- A text raised with `?` is passed on. -/
theorem plain_of_mapError_raise {α : Type} {x : Except String α}
    (h : x.mapError raise = .error (.error err)) : err.Plain := by
  obtain ⟨text, -, h⟩ := mapError_error.1 h
  obtain rfl := HostStop.error.inj h
  exact .other text

theorem getPreparedProver_plain {proverBackend : ProverBackend} {cudaDeviceId : Option UInt32}
    (h : getPreparedProver host proverBackend cudaDeviceId = .error (.error err)) :
    err.Plain := by
  unfold getPreparedProver at h
  split at h
  · cases h
  · rcases bind_error.1 h with h | ⟨prover, -, h⟩
    · exact plain_of_mapError_raise h
    · cases h

theorem saveProofs_plain {prover : Prover Inner Vk} {batch : PreparedBatch Inner}
    {proof : ProofWithPublicValues Inner}
    (h : saveProofs host config files prover batch proof = .error (.error err)) :
    err.Plain := by
  unfold saveProofs at h
  rcases bind_error.1 h with h | ⟨files₁, -, h⟩
  · exact plain_of_mapError_raise h
  rcases bind_error.1 h with h | ⟨files₂, -, h⟩
  · exact plain_of_mapError_raise h
  split at h
  · rcases bind_error.1 h with h | ⟨groth16Proof, -, h⟩
    · exact plain_of_mapError_raise h
    rcases bind_error.1 h with h | ⟨files₃, -, h⟩
    · exact plain_of_mapError_raise h
    cases h
  · cases h

/-- **A batch that is to be proved and is not** found no row, or its error does not say so. -/
theorem runSingleBatch_error (hexec : config.executeOnly = false)
    (h : runSingleBatch host config db files = .error (.error err)) :
    err.Plain ∨ NoRowLeft host.lib (host.fs.load files) db GENESIS_HASH config.prevProofPath
      config.trustedStartHeight config.numHeaders := by
  have hmode : config.mode ≠ .executeOnly := fun hm => by
    rw [mode_eq_executeOnly.1 hm] at hexec
    cases hexec
  rw [runSingleBatch, generateAndSaveProofs, if_neg fun hm => hmode hm.1] at h
  rcases bind_error.1 h with h | ⟨prepared, -, h⟩
  · exact .inl (getPreparedProver_plain h)
  unfold runWithProver at h
  rcases bind_error.1 h with h | ⟨batch, -, h⟩
  · exact prepareBatch_error h
  rw [if_neg hmode] at h
  rcases bind_error.1 h with h | ⟨proof, -, h⟩
  · obtain ⟨e, hproof, he⟩ := mapError_error.1 h
    obtain rfl := HostStop.error.inj he
    exact .inl (generateCompressedProof_plain hproof)
  · exact .inl (saveProofs_plain h)

end Batch

/-! ## The loop -/

section Session

variable {host : Machine Files Inner Vk} {config : ProofGenerationConfig} {db : Table}
  {files₀ : Files} {row : Nat → Row} {n H last : Nat} {genesisHeader : Header}
  {outDir : PathBuf} {s : SessionState Files} {completed : List (ProofArtifacts Inner)}
  {count : UInt32}

/-- A session counts its batches. -/
theorem Session.batchCount (hs : Session host config db outDir files₀ s completed) :
    s.batchCount.toNat = completed.length ∧ completed.length ≤ config.batchCount.toNat := by
  induction hs with
  | start => exact ⟨rfl, Nat.zero_le _⟩
  | @turn s completed _ _ artifacts hs hlt hdir hrun ih =>
    obtain ⟨hcount, -⟩ := ih
    rw [UInt32.lt_iff_toNat_lt] at hlt
    have hbound := config.batchCount.toNat_lt
    rw [SessionState.next_batchCount, toNat_add_one (by omega), List.length_append,
      List.length_singleton, hcount]
    exact ⟨rfl, hcount ▸ hlt⟩

/-- The next batch ends with an error that reads like an exhausted table. -/
def Quits (host : Machine Files Inner Vk) (config : ProofGenerationConfig) (db : Table)
    (outDir : PathBuf) (s : SessionState Files) (err : BoxError) : Prop :=
  ∃ files, host.fs.createDirAll outDir s.files = .ok files ∧
    runSingleBatch host (s.batchConfig config outDir) db files = .error (.error err) ∧
    isHeaderExhaustionError err = true

/-- **What a loop that returns has done.**  It stopped in a state it reached, at the limit or on an
error that reads like an exhausted table, and it returns the number of batches completed there. -/
theorem Session.runBatches_ok (hs : Session host config db outDir files₀ s completed)
    (h : runBatches host config db outDir s = .ok count) :
    ∃ s' completed', Session host config db outDir files₀ s' completed' ∧
      count.toNat = completed'.length ∧
      (completed'.length = config.batchCount.toNat ∨
        ∃ err, Quits host config db outDir s' err) := by
  fun_induction runBatches host config db outDir s generalizing completed with
  | case1 => cases h
  | case2 s hlt files hdir artifacts files' hrun ih => exact ih (.turn hs hlt hdir hrun) h
  | case3 => cases h
  | case4 s hlt files hdir err hrun hend =>
    obtain rfl := Except.ok.inj h
    refine ⟨s, completed, hs, ?_, .inr ⟨err, files, hdir, hrun, hend⟩⟩
    rw [UInt32.add_sub_cancel, hs.batchCount.1]
  | case5 => cases h
  | case6 s hlt =>
    obtain rfl := Except.ok.inj h
    obtain ⟨hcount, hle⟩ := hs.batchCount
    rw [UInt32.lt_iff_toNat_lt, hcount] at hlt
    exact ⟨s, completed, hs, hcount, .inl (hle.antisymm (Nat.le_of_not_lt hlt))⟩

/-- Where no row is left, all rows were replayed. -/
theorem ReplaysTo.eq_of_noRowLeft {files : Files} {prevProofPath : Option PathBuf}
    {numHeaders : UInt32} (hrows : Heights db row n)
    (hcollision : NoCollision host.lib db genesisHeader)
    (hstart : FollowsReplay host db files prevProofPath last)
    (h : NoRowLeft host.lib (host.fs.load files) db GENESIS_HASH prevProofPath none numHeaders) :
    last + 1 = n ∨ numHeaders = 0 := by
  obtain ⟨previousProof, currentState, w, hprevious, hcurrent, hw, hempty⟩ := h
  have hreplay := ReplaysTo.currentState hrows hcollision hstart hprevious hcurrent
  have hlt := hreplay.lt hrows
  have hfits := hrows.fits
  have hheight : currentState.height.toNat = last := by
    rw [hreplay.height]
    exact UInt32.toNat_ofNat_of_lt' (hlt.trans hfits)
  rw [toNat_add_one (by omega), hheight] at hw
  have hlen := hrows.length_witness hlt hw
  rw [hempty, List.length_nil] at hlen
  rcases Nat.eq_zero_or_pos numHeaders.toNat with hzero | hpos
  · exact .inr (UInt32.toNat_inj.1 hzero)
  · exact .inl (by omega)

/-- Why a session that returns ended where its last batch did. -/
inductive EndsAt (host : Machine Files Inner Vk) (config : ProofGenerationConfig) (db : Table)
    (n last : Nat) (s : SessionState Files) (completed : List (ProofArtifacts Inner)) : Prop
  | limit : completed.length = config.batchCount.toNat → EndsAt host config db n last s completed
  | rows : last + 1 = n → EndsAt host config db n last s completed
  | emptyBatches : config.numHeaders = 0 → EndsAt host config db n last s completed
  /-- A text from outside that begins like the error of an exhausted table. -/
  | outside {text : String} : Quits host config db (sessionOutDir host config) s (.other text) →
      EndsAt host config db n last s completed

/-- **A session that returns has done its work.**  Whatever the prover returns and whatever the
rows hold, if `run_batch_session` returns a number, then so many batches follow each other
without gap from where it started, the file of each certifies the replay of the rows up to its
last block, and the last block is that of the last row; unless the limit of batches was reached,
batches are configured to be empty, or a text from outside the host began like the error of an
exhausted table. -/
theorem runBatchSession_complete
    (hconfig : configFromSource host.cudaFeature host.dbPathDefault host.env = .ok config)
    (hconnect : host.connect config.dbPath = .ok db) (hexec : config.executeOnly = false)
    (hretains : host.fs.Retains (sessionOutDir host config)) (hrows : Heights db row n)
    (hcollision : NoCollision host.lib db genesisHeader)
    (hstart : FollowsReplay host db files₀ config.prevProofPath H)
    (h : runBatchSession host files₀ = .ok count) :
    ∃ s completed last, Reached host files₀ config db s completed ∧
      count.toNat = completed.length ∧ Consecutive H completed last ∧
      (∀ artifacts ∈ completed, CertifiedFile host config db s.files
        (compressedFile (sessionOutDir host config) artifacts.firstNewHeight artifacts.endHeight)
        artifacts.endHeight) ∧
      EndsAt host config db n last s completed := by
  rw [(Reached.mk hconfig hconnect .start).runBatchSession_eq] at h
  obtain ⟨s, completed, hs, hcount, hend⟩ := Session.start.runBatches_ok h
  obtain ⟨last, hsession⟩ := hs.certified hretains hexec hrows hcollision hstart
  refine ⟨s, completed, last, ⟨hconfig, hconnect, hs⟩, hcount, hsession.consecutive,
    fun artifacts hmem => (hsession.certified artifacts hmem).2, ?_⟩
  rcases hend with hlimit | ⟨err, files, hdir, hrun, hexhausted⟩
  · exact .limit hlimit
  have hexec' : (s.batchConfig config (sessionOutDir host config)).executeOnly = false := hexec
  rcases runSingleBatch_error hexec' hrun with hplain | hnone
  · obtain ⟨text, rfl⟩ := hplain hexhausted
    exact .outside ⟨files, hdir, hrun, hexhausted⟩
  · have htrusted : (s.batchConfig config (sessionOutDir host config)).trustedStartHeight = none :=
      hsession.trusted
    rw [htrusted] at hnone
    have hfollows := hsession.follows.mono (hretains.createDirAll _ _ hdir)
    rcases ReplaysTo.eq_of_noRowLeft hrows hcollision hfollows hnone with hlast | hzero
    · exact .rows hlast
    · exact .emptyBatches hzero

/-- Both blocks of the main chain are certified before the session returns. -/
theorem runBatchSession_complete_mainnet : ∃ (count : UInt32) (s : SessionState _)
    (completed : List (ProofArtifacts Unit)) (last : Nat),
    runBatchSession provingMachine [] = .ok count ∧ count.toNat = 2 ∧
      count.toNat = completed.length ∧ Consecutive 0 completed last ∧
      (∀ artifacts ∈ completed, CertifiedFile provingMachine provingConfig mainnetTable s.files
        (compressedFile (sessionOutDir provingMachine provingConfig) artifacts.firstNewHeight
          artifacts.endHeight) artifacts.endHeight) ∧
      EndsAt provingMachine provingConfig mainnetTable 3 last s completed := by
  obtain ⟨g, hg⟩ := mainnet_holdsChain.exists_genesis
  obtain ⟨s, completed, h, hlen, -⟩ := provingSession_mainnet (Nat.le_refl 2)
  have hfeature := configFromSource_cuda h.reached.configured
  obtain ⟨hc, -⟩ := h.reached.session.covered h.works hfeature mainnet_holdsChain rfl hg h.fits
    (by decide) h.start_le h.start
  have hrun : runBatchSession provingMachine [] = .ok s.batchCount := by
    rw [h.reached.runBatchSession_eq]
    exact hc.runBatches_eq h.works hfeature mainnet_holdsChain rfl hg h.fits
      (by rw [hlen]; decide)
  obtain ⟨s', completed', last, -, hrest⟩ := runBatchSession_complete h.reached.configured
    h.reached.connected h.proving h.works.files.retains
    (heights_of_holdsChain mainnet_holdsChain (by decide))
    (noCollision_of_holdsChain mainnet_holdsChain rfl (by decide)) .genesis hrun
  exact ⟨s.batchCount, s', completed', last, hrun, hc.count.trans hlen, hrest⟩

end Session

end Zkpow.Host
