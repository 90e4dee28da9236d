import Zkpow.Session
import Zkpow.Lib.SharedSlot

/-!
# The prepared-prover cache

`get_prepared_prover` keeps the prover it built last in a static slot
(`crates/host/src/pipeline/proof/mod.rs`).  The slot is locked while a call looks into it and while
it stores, not while it builds.

* `preparedProver_concurrent` — concurrent calls, in any interleaving: each returns what building
  for its own configuration returns;
* `getPreparedProverCached_eq_steps` — a call that nothing interleaves with;
* `runBatchSessionCached_eq` — a session with the cache is the session without, and builds at most
  one prover.
-/

set_option autoImplicit false

namespace Zkpow.Host

open ExceptFold SharedSlot

variable {Files Inner Vk : Type} (host : Machine Files Inner Vk)

structure PreparedProverConfig where
  backend : ProverBackend
  cudaDeviceId : Option UInt32
  deriving DecidableEq, Repr

/-- What a miss builds: the client and its proving key. -/
def buildPreparedProver (desired : PreparedProverConfig) :
    Except HostStop (PreparedProver Inner Vk) :=
  getPreparedProver host desired.backend desired.cudaDeviceId

/-! ## Concurrent calls -/

section Concurrent

variable {host} {C : Type} [DecidableEq C]

/-- **Concurrent calls do not mix up their provers.**  Whatever the interleaving of any number of
calls, a call that has returned returned what building for its own backend and device gives, the
slot holds what building for its key gives, no call has built twice, and when all calls ask for one
configuration none that looked after the first store has built at all. -/
theorem preparedProver_concurrent (request : C → PreparedProverConfig)
    (actions : List (Action C (PreparedProver Inner Vk) HostStop))
    (hbuild : ∀ c outcome, .build c outcome ∈ actions →
      outcome = buildPreparedProver host (request c)) :
    let run := Transactions.run (step request) .initial actions
    (∀ c result, run.1.phase c = .returned result →
      result = buildPreparedProver host (request c)) ∧
    (∀ cfg prepared, run.1.slot = some (cfg, prepared) →
      buildPreparedProver host cfg = .ok prepared) ∧
    (∀ c, builds c run.2 ≤ 1) ∧
    ((∃ cfg, ∀ c, request c = cfg) → ∀ c, LooksAfterStore c run.2 → builds c run.2 = 0) := by
  intro run
  have hinv := run_inv request actions
  have hbuilt : ∀ c outcome, .build c outcome ∈ run.2 →
      outcome = buildPreparedProver host (request c) :=
    fun c outcome hmem => hbuild c outcome (Transactions.mem_of_mem_history hmem)
  refine ⟨fun c result hresult => ?_, fun cfg prepared hslot => ?_, hinv.once, ?_⟩
  · cases result with
    | ok prepared =>
      obtain ⟨d, hd, hmem⟩ := hinv.returned c prepared hresult
      rw [hbuilt d _ hmem, hd]
    | error e => exact hbuilt c _ (hinv.failed c e hresult)
  · obtain ⟨c, rfl, hmem⟩ := hinv.slot cfg prepared hslot
    exact (hbuilt c _ hmem).symm
  · rintro ⟨cfg, hcfg⟩ c hc
    exact builds_eq_zero hcfg actions hc

/-- A CPU call and a mock call that both find the slot empty, and store in the other order. -/
theorem preparedProver_concurrent_mainnet :
    let request : Bool → PreparedProverConfig := fun c => ⟨if c then .cpu else .mock, none⟩
    let outcome := fun c => buildPreparedProver (mainnetMachine false) (request c)
    let run := Transactions.run (step request) .initial
      [.look true, .look false, .build true (outcome true), .build false (outcome false),
        .store false, .store true]
    ∀ c result, run.1.phase c = .returned result → result = outcome c := by
  intro request outcome run
  refine (preparedProver_concurrent request _ fun c r hmem => ?_).1
  simp only [List.mem_cons, Action.build.injEq, reduceCtorEq, false_or, List.not_mem_nil,
    or_false] at hmem
  rcases hmem with ⟨rfl, rfl⟩ | ⟨rfl, rfl⟩ <;> rfl

end Concurrent

/-! ## One call after the other -/

/-- The static slot, and the configurations of the log lines `building prepared prover`. -/
structure PreparedProverStore (Inner Vk : Type) where
  slot : Option (PreparedProverConfig × PreparedProver Inner Vk)
  built : List PreparedProverConfig

variable (store : PreparedProverStore Inner Vk)

/-- `get_prepared_prover`, with the slot it leaves. -/
def getPreparedProverCached (proverBackend : ProverBackend) (cudaDeviceId : Option UInt32) :
    Except HostStop (PreparedProver Inner Vk) × PreparedProverStore Inner Vk :=
  let desired : PreparedProverConfig := ⟨proverBackend, cudaDeviceId⟩
  let miss : Except HostStop (PreparedProver Inner Vk) × PreparedProverStore Inner Vk :=
    match buildPreparedProver host desired with
    | .ok prepared => (.ok prepared, ⟨some (desired, prepared), store.built ++ [desired]⟩)
    | .error e => (.error e, ⟨store.slot, store.built ++ [desired]⟩)
  match store.slot with
  | some (cachedCfg, prepared) => if cachedCfg = desired then (.ok prepared, store) else miss
  | none => miss

section Store

variable {host store}

/-- The slot holds what building for its key gives. -/
def PreparedProverStore.Valid (host : Machine Files Inner Vk)
    (store : PreparedProverStore Inner Vk) : Prop :=
  ∀ cfg prepared, store.slot = some (cfg, prepared) → buildPreparedProver host cfg = .ok prepared

/-- The slot holds a prover for the configuration. -/
def PreparedProverStore.Holds (store : PreparedProverStore Inner Vk)
    (cfg : PreparedProverConfig) : Prop := ∃ prepared, store.slot = some (cfg, prepared)

/-- What a call does to the store: at most one build, none if the slot holds its configuration. -/
structure StoreStep (host : Machine Files Inner Vk) (desired : PreparedProverConfig)
    (store store' : PreparedProverStore Inner Vk) : Prop where
  valid : store.Valid host → store'.Valid host
  holds : store.Holds desired → store' = store
  built : ∃ n, n ≤ 1 ∧ store'.built = store.built ++ List.replicate n desired

theorem StoreStep.refl (desired : PreparedProverConfig) : StoreStep host desired store store where
  valid := id
  holds _ := rfl
  built := ⟨0, Nat.zero_le _, by simp⟩

/-- After a step that left the store alone or the prover cached, another one adds no build. -/
theorem StoreStep.trans {desired : PreparedProverConfig}
    {store store₁ store₂ : PreparedProverStore Inner Vk} (h : StoreStep host desired store store₁)
    (h' : StoreStep host desired store₁ store₂) (hmid : store₁ = store ∨ store₁.Holds desired) :
    StoreStep host desired store store₂ := by
  rcases hmid with rfl | hholds
  · exact h'
  · rw [h'.holds hholds]
    exact h

/-- **One call**: the answer is that of building anew, and a success leaves the prover cached. -/
theorem getPreparedProverCached_spec (hvalid : store.Valid host) (proverBackend : ProverBackend)
    (cudaDeviceId : Option UInt32) :
    let r := getPreparedProverCached host store proverBackend cudaDeviceId
    r.1 = getPreparedProver host proverBackend cudaDeviceId ∧
      StoreStep host ⟨proverBackend, cudaDeviceId⟩ store r.2 ∧
      ((∃ prepared, r.1 = .ok prepared) → r.2.Holds ⟨proverBackend, cudaDeviceId⟩) := by
  intro r
  by_cases hhit : store.Holds ⟨proverBackend, cudaDeviceId⟩
  · obtain ⟨prepared, hslot⟩ := hhit
    have hr : r = (.ok prepared, store) := by
      show getPreparedProverCached host store proverBackend cudaDeviceId = _
      unfold getPreparedProverCached
      rw [hslot]
      simp
    rw [hr]
    exact ⟨(hvalid _ _ hslot).symm, .refl _, fun _ => ⟨prepared, hslot⟩⟩
  · have hr : r = match buildPreparedProver host ⟨proverBackend, cudaDeviceId⟩ with
        | .ok prepared => (.ok prepared, ⟨some (⟨proverBackend, cudaDeviceId⟩, prepared),
            store.built ++ [⟨proverBackend, cudaDeviceId⟩]⟩)
        | .error e => (.error e, ⟨store.slot, store.built ++ [⟨proverBackend, cudaDeviceId⟩]⟩) := by
      show getPreparedProverCached host store proverBackend cudaDeviceId = _
      unfold getPreparedProverCached
      simp only
      split
      · rename_i cfg prepared hslot
        rw [if_neg (by rintro rfl; exact hhit ⟨prepared, hslot⟩)]
      · rfl
    have hbuild : buildPreparedProver host ⟨proverBackend, cudaDeviceId⟩ =
      getPreparedProver host proverBackend cudaDeviceId := rfl
    rw [hr]
    cases hget : getPreparedProver host proverBackend cudaDeviceId with
    | ok prepared =>
      rw [hbuild, hget]
      refine ⟨rfl, ⟨fun _ => ?_, fun h => absurd h hhit, 1, Nat.le_refl _, rfl⟩,
        fun _ => ⟨prepared, rfl⟩⟩
      rintro cfg prepared' hslot
      obtain ⟨rfl, rfl⟩ : ⟨proverBackend, cudaDeviceId⟩ = cfg ∧ prepared = prepared' := by
        simpa using hslot
      exact hbuild.trans hget
    | error e =>
      rw [hbuild, hget]
      refine ⟨rfl, ⟨fun h => h, fun h => absurd h hhit, 1, Nat.le_refl _, rfl⟩, ?_⟩
      rintro ⟨prepared, h⟩
      cases h

/-- **The call is its three steps**, when no other call comes between: look, build, store. -/
theorem getPreparedProverCached_eq_steps (proverBackend : ProverBackend)
    (cudaDeviceId : Option UInt32) :
    let r := getPreparedProverCached host store proverBackend cudaDeviceId
    let w := (Transactions.run (step fun _ : Unit => (⟨proverBackend, cudaDeviceId⟩ :
        PreparedProverConfig)) ⟨store.slot, fun _ => .waiting⟩
      [.look (), .build () (buildPreparedProver host ⟨proverBackend, cudaDeviceId⟩),
        .store ()]).1
    w.slot = r.2.slot ∧ w.phase () = .returned r.1 := by
  intro r w
  show w.slot = (getPreparedProverCached host store proverBackend cudaDeviceId).2.slot ∧
    w.phase () = .returned (getPreparedProverCached host store proverBackend cudaDeviceId).1
  unfold getPreparedProverCached
  cases hslot : store.slot with
  | none =>
    cases hbuild : buildPreparedProver host ⟨proverBackend, cudaDeviceId⟩ <;>
      simp [w, Transactions.run, Transactions.attempt, step, World.found, World.set, hslot, hbuild]
  | some cached =>
    obtain ⟨cfg, prepared⟩ := cached
    by_cases hcfg : cfg = ⟨proverBackend, cudaDeviceId⟩
    · simp [w, Transactions.run, Transactions.attempt, step, World.found, World.set, hslot, hcfg]
    · cases hbuild : buildPreparedProver host ⟨proverBackend, cudaDeviceId⟩ <;>
        simp [w, Transactions.run, Transactions.attempt, step, World.found, World.set, hslot, hcfg,
          hbuild]

end Store

/-! ## A session with the cache -/

section Batch

variable (config : ProofGenerationConfig) (db : Table) (files : Files)

/-- The prover of a batch, passed on to the rest of it. -/
def withPreparedProver {α : Type} (rest : PreparedProver Inner Vk → Except HostStop α) :
    Except HostStop α × PreparedProverStore Inner Vk :=
  let (prepared, store) :=
    getPreparedProverCached host store config.proverBackend config.cudaDeviceId
  (prepared >>= rest, store)

def executeWithoutSetupCached :
    Except HostStop (ProofArtifacts Inner × Files) × PreparedProverStore Inner Vk :=
  if config.prevProofPath.isSome then
    withPreparedProver host store config fun prepared =>
      if prepared.backend = .mock then runWithProver host config db files prepared.prover
      else .error (.panic .notMockProver)
  else
    (do
      let batch ← configuredBatch host config db files
      let _ ← (executeBatchWithoutProof host.lib host.sdk.mockExecute batch).mapError .error
      return (.executionOnly batch, files), store)

def generateAndSaveProofsCached :
    Except HostStop (ProofArtifacts Inner × Files) × PreparedProverStore Inner Vk :=
  if config.mode = .executeOnly ∧ config.proverBackend = .mock then
    executeWithoutSetupCached host store config db files
  else
    withPreparedProver host store config fun prepared =>
      runWithProver host config db files prepared.prover

variable {host store}

theorem withPreparedProver_spec {α : Type} (hvalid : store.Valid host)
    (rest : PreparedProver Inner Vk → Except HostStop α) :
    let r := withPreparedProver host store config rest
    let desired : PreparedProverConfig := ⟨config.proverBackend, config.cudaDeviceId⟩
    r.1 = getPreparedProver host config.proverBackend config.cudaDeviceId >>= rest ∧
      StoreStep host desired store r.2 ∧
      ((∃ a, r.1 = .ok a) → r.2 = store ∨ r.2.Holds desired) := by
  intro r desired
  obtain ⟨hresult, hstep, hholds⟩ :=
    getPreparedProverCached_spec hvalid config.proverBackend config.cudaDeviceId
  refine ⟨?_, hstep, ?_⟩
  · rw [← hresult]
    rfl
  · rintro ⟨a, ha⟩
    obtain ⟨prepared, hprepared, -⟩ := bind_ok.1 ha
    exact .inr (hholds ⟨prepared, hprepared⟩)

/-- **One batch with the cache** returns what it returns without. -/
theorem generateAndSaveProofsCached_spec (hvalid : store.Valid host) :
    let r := generateAndSaveProofsCached host store config db files
    let desired : PreparedProverConfig := ⟨config.proverBackend, config.cudaDeviceId⟩
    r.1 = generateAndSaveProofs host config db files ∧ StoreStep host desired store r.2 ∧
      ((∃ a, r.1 = .ok a) → r.2 = store ∨ r.2.Holds desired) := by
  intro r desired
  have hr : r = generateAndSaveProofsCached host store config db files := rfl
  unfold generateAndSaveProofsCached at hr
  unfold generateAndSaveProofs
  split at hr
  · rename_i hmock
    rw [if_pos hmock]
    unfold executeWithoutSetupCached at hr
    unfold executeWithoutSetup
    split at hr
    · rename_i hprev
      rw [if_pos hprev, hr]
      exact withPreparedProver_spec config hvalid _
    · rename_i hprev
      rw [if_neg hprev, hr]
      exact ⟨rfl, .refl _, fun _ => .inl rfl⟩
  · rename_i hmock
    rw [if_neg hmock, hr]
    exact withPreparedProver_spec config hvalid _

/-- What a batch with the cache returned and left, once it is computed. -/
theorem runSingleBatch_of_cached {result : Except HostStop (ProofArtifacts Inner × Files)}
    {store' : PreparedProverStore Inner Vk} (hvalid : store.Valid host)
    (h : generateAndSaveProofsCached host store config db files = (result, store')) :
    runSingleBatch host config db files = result ∧
      StoreStep host ⟨config.proverBackend, config.cudaDeviceId⟩ store store' ∧
      ((∃ a, result = .ok a) →
        store' = store ∨ store'.Holds ⟨config.proverBackend, config.cudaDeviceId⟩) := by
  obtain ⟨hresult, hstep, hmid⟩ := generateAndSaveProofsCached_spec config db files hvalid
  rw [h] at hresult hstep hmid
  exact ⟨hresult.symm, hstep, hmid⟩

end Batch

section Loop

variable (config : ProofGenerationConfig) (db : Table) (outDir : PathBuf)

/-- The loop of `run_batch_session`, with the slot. -/
def runBatchesCached (store : PreparedProverStore Inner Vk) (s : SessionState Files) :
    Except HostStop UInt32 × PreparedProverStore Inner Vk :=
  if _h : s.batchCount < config.batchCount then
    match host.fs.createDirAll outDir s.files with
    | .error text => (.error (raise text), store)
    | .ok files =>
      match generateAndSaveProofsCached host store (s.batchConfig config outDir) db files with
      | (.ok (artifacts, files), store) =>
        runBatchesCached store (s.next config artifacts files)
      | (.error (.panic p), store) => (.error (.panic p), store)
      | (.error (.error err), store) =>
        if isHeaderExhaustionError err then (.ok (s.batchCount + 1 - 1), store)
        else (.error (.error err), store)
  else (.ok s.batchCount, store)
  termination_by config.batchCount.toNat - s.batchCount.toNat
  decreasing_by
    have hlt : s.batchCount.toNat < config.batchCount.toNat := by assumption
    have hbound := config.batchCount.toNat_lt
    rw [SessionState.next_batchCount, toNat_add_one (by omega)]
    omega

def runBatchSessionCached (files : Files) :
    Except HostStop UInt32 × PreparedProverStore Inner Vk :=
  match (configFromSource host.cudaFeature host.dbPathDefault host.env).mapError .error with
  | .error e => (.error e, store)
  | .ok config =>
    match (host.connect config.dbPath).mapError fun e =>
      raise ("failed to open database: " ++ e) with
    | .error e => (.error e, store)
    | .ok db =>
      runBatchesCached host config db (sessionOutDir host config) store (.start config files)

variable {host store}

theorem runBatchesCached_spec (s : SessionState Files) (hvalid : store.Valid host) :
    let r := runBatchesCached host config db outDir store s
    r.1 = runBatches host config db outDir s ∧
      StoreStep host ⟨config.proverBackend, config.cudaDeviceId⟩ store r.2 := by
  fun_induction runBatchesCached host config db outDir store s with
  | case1 store s hlt text hdir =>
    refine ⟨?_, .refl _⟩
    rw [runBatches, dif_pos hlt, hdir]
  | case2 store s hlt files hdir artifacts files' store' hbatch ih =>
    obtain ⟨hresult, hstep, hmid⟩ := runSingleBatch_of_cached _ db files hvalid hbatch
    obtain ⟨hrest, hsteps⟩ := ih (hstep.valid hvalid)
    refine ⟨?_, hstep.trans hsteps (hmid ⟨_, rfl⟩)⟩
    rw [hrest, runBatches.eq_def host config db outDir s, dif_pos hlt, hdir]
    simp only [hresult]
  | case3 store s hlt files hdir p store' hbatch =>
    obtain ⟨hresult, hstep, -⟩ := runSingleBatch_of_cached _ db files hvalid hbatch
    refine ⟨?_, hstep⟩
    rw [runBatches, dif_pos hlt, hdir]
    simp only [hresult]
  | case4 store s hlt files hdir err store' hbatch hend =>
    obtain ⟨hresult, hstep, -⟩ := runSingleBatch_of_cached _ db files hvalid hbatch
    refine ⟨?_, hstep⟩
    rw [runBatches, dif_pos hlt, hdir]
    simp only [hresult, if_pos hend]
  | case5 store s hlt files hdir err store' hbatch hend =>
    obtain ⟨hresult, hstep, -⟩ := runSingleBatch_of_cached _ db files hvalid hbatch
    refine ⟨?_, hstep⟩
    rw [runBatches, dif_pos hlt, hdir]
    simp only [hresult, if_neg hend]
  | case6 store s hlt =>
    refine ⟨?_, .refl _⟩
    rw [runBatches, dif_neg hlt]

/-- **The cache is invisible, and builds once.**  From a store whose slot holds what building for
its key gives, a session returns what it returns without the cache, leaves such a store, and builds
at most one prover, that of its configuration. -/
theorem runBatchSessionCached_eq (hvalid : store.Valid host) (files : Files) :
    let r := runBatchSessionCached host store files
    r.1 = runBatchSession host files ∧ r.2.Valid host ∧
      (r.2.built = store.built ∨ ∃ config,
        configFromSource host.cudaFeature host.dbPathDefault host.env = .ok config ∧
        r.2.built = store.built ++ [⟨config.proverBackend, config.cudaDeviceId⟩]) := by
  intro r
  have hr : r = runBatchSessionCached host store files := rfl
  unfold runBatchSessionCached at hr
  unfold runBatchSession
  cases hconfig : configFromSource host.cudaFeature host.dbPathDefault host.env with
  | error e =>
    rw [hconfig] at hr
    rw [hr]
    exact ⟨rfl, hvalid, .inl rfl⟩
  | ok config =>
    rw [hconfig] at hr
    simp only [Except.mapError, bind, Except.bind] at hr ⊢
    cases hconnect : host.connect config.dbPath with
    | error e =>
      rw [hconnect] at hr
      rw [hr]
      exact ⟨rfl, hvalid, .inl rfl⟩
    | ok db =>
      rw [hconnect] at hr
      simp only at hr ⊢
      obtain ⟨hresult, hstep⟩ := runBatchesCached_spec config db (sessionOutDir host config)
        (.start config files) hvalid
      rw [hr]
      refine ⟨hresult, hstep.valid hvalid, ?_⟩
      obtain ⟨n, hn, hbuilt⟩ := hstep.built
      rcases Nat.le_one_iff_eq_zero_or_eq_one.1 hn with rfl | rfl
      · exact .inl (by rw [hbuilt]; simp)
      · exact .inr ⟨config, rfl, hbuilt⟩

/-- The first session of a process starts from the empty slot. -/
theorem runBatchSessionCached_eq_mainnet :
    (runBatchSessionCached (mainnetMachine false) ⟨none, []⟩ ()).1 =
      runBatchSession (mainnetMachine false) () :=
  (runBatchSessionCached_eq (fun _ _ h => by cases h) ()).1

end Loop

end Zkpow.Host
