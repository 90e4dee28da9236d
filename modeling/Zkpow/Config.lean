import Zkpow.Host

/-!
# Configuration

How the host turns environment variables into the configuration of a session
(`crates/host/src/pipeline/input.rs`, and the types of `pipeline/mod.rs`).

* `configFromSource_spec` — a configuration that is returned never combines execute-only with
  Groth16 or with the CPU backend, never asks for the mock backend otherwise, and has no trusted
  start height.
-/

set_option autoImplicit false

namespace Zkpow.Host

open ByteCodec ExceptFold

/-! ## Types -/

inductive ProverBackend where
  | mock
  | cpu
  | cuda
  deriving DecidableEq, Repr

abbrev PathBuf := String

/-- `Path::join` with a relative path. -/
def PathBuf.join (base : PathBuf) (name : String) : PathBuf :=
  if base = "" ∨ base.toList.getLast? = some '/' then base ++ name else base ++ "/" ++ name

/-- `path == Path::new(".")`: paths are compared by their components. -/
def PathBuf.isCurDir (path : PathBuf) : Bool :=
  match path.toList.splitOn '/' with
  | first :: rest => first == ['.'] && rest.all fun part => part == [] || part == ['.']
  | [] => false

structure ProofGenerationConfig where
  prevProofPath : Option PathBuf
  trustedStartHeight : Option UInt32
  numHeaders : UInt32
  batchCount : UInt32
  dbPath : PathBuf
  outputDir : PathBuf
  generateGroth16 : Bool
  executeOnly : Bool
  proverBackend : ProverBackend
  cudaDeviceId : Option UInt32
  deriving DecidableEq, Repr

inductive PipelineMode where
  | executeOnly
  | proveCompressed
  | proveCompressedAndGroth16
  deriving DecidableEq, Repr

def ProofGenerationConfig.mode (config : ProofGenerationConfig) : PipelineMode :=
  if config.executeOnly then .executeOnly
  else if config.generateGroth16 then .proveCompressedAndGroth16
  else .proveCompressed

theorem mode_eq_executeOnly {config : ProofGenerationConfig} :
    config.mode = .executeOnly ↔ config.executeOnly = true := by
  unfold ProofGenerationConfig.mode
  split
  · rename_i h
    exact ⟨fun _ => h, fun _ => rfl⟩
  · rename_i h
    constructor
    · intro hmode
      split at hmode <;> cases hmode
    · intro h'
      exact absurd h' h

/-! ## Environment variables -/

/-- `std::env::VarError`, with the text of its second case. -/
inductive VarError where
  | notPresent
  | notUnicode (text : String)

/-- `EnvSource::get`. -/
abbrev EnvSource := String → Except VarError String

def ENV_ZKPOW_BATCH_SIZE : String := "ZKPOW_BATCH_SIZE"
def ENV_ZKPOW_BATCH_COUNT : String := "ZKPOW_BATCH_COUNT"
def ENV_ZKPOW_OUTPUT_DIR : String := "ZKPOW_OUTPUT_DIR"
def ENV_ZKPOW_DB_PATH : String := "ZKPOW_DB_PATH"
def ENV_ZKPOW_PREV_PROOF : String := "ZKPOW_PREV_PROOF"
def ENV_ZKPOW_EXECUTE_ONLY : String := "ZKPOW_EXECUTE_ONLY"
def ENV_ZKPOW_GENERATE_GROTH16 : String := "ZKPOW_GENERATE_GROTH16"
def ENV_ZKPOW_USE_CUDA : String := "ZKPOW_USE_CUDA"
def ENV_ZKPOW_CUDA_DEVICE_ID : String := "ZKPOW_CUDA_DEVICE_ID"

def DEFAULT_BATCH_SIZE : UInt32 := 2016
def DEFAULT_BATCH_COUNT : UInt32 := 500

def parseBoolEnvOr (source : EnvSource) (varName : String) (default : Bool) :
    Except BoxError Bool :=
  match source varName with
  | .ok value =>
    match value.map Char.toLower with
    | "1" | "true" | "yes" | "on" => .ok true
    | "0" | "false" | "no" | "off" => .ok false
    | _ => .error (.other ("invalid " ++ varName ++ " value `" ++ value ++
        "`; expected one of 1,true,yes,on,0,false,no,off"))
  | .error .notPresent => .ok default
  | .error (.notUnicode text) => .error (.other text)

def parseBoolEnv (source : EnvSource) (varName : String) : Except BoxError Bool :=
  parseBoolEnvOr source varName false

/-- The texts of `ParseIntError`. -/
inductive ParseIntError where
  | empty
  | invalidDigit
  | posOverflow

def ParseIntError.display : ParseIntError → String
  | .empty => "cannot parse integer from empty string"
  | .invalidDigit => "invalid digit found in string"
  | .posOverflow => "number too large to fit in target type"

/-- One digit of `u32::from_str`. -/
def pushDigit (n : Nat) (c : Char) : Except ParseIntError Nat :=
  if ¬ c.isDigit then .error .invalidDigit
  else if 10 * n + (c.toNat - '0'.toNat) < 2 ^ 32 then .ok (10 * n + (c.toNat - '0'.toNat))
  else .error .posOverflow

/-- `u32::from_str`: one leading plus sign is allowed, alone it is not. -/
def parseU32 (s : String) : Except ParseIntError UInt32 :=
  match s.toList with
  | [] => .error .empty
  | ['+'] => .error .invalidDigit
  | '+' :: digits => (digits.foldlM pushDigit 0).map UInt32.ofNat
  | digits => (digits.foldlM pushDigit 0).map UInt32.ofNat

def parseU32Env (source : EnvSource) (varName : String) : Except BoxError (Option UInt32) :=
  match source varName with
  | .ok value =>
    match parseU32 value with
    | .ok n => .ok (some n)
    | .error err => .error (.other ("invalid " ++ varName ++ " value `" ++ value ++ "`: " ++
        err.display))
  | .error .notPresent => .ok none
  | .error (.notUnicode text) => .error (.other text)

def parseU32EnvOr (source : EnvSource) (varName : String) (default : UInt32) :
    Except BoxError UInt32 :=
  (parseU32Env source varName).map fun n => n.getD default

def parsePathEnv (source : EnvSource) (varName : String) : Option PathBuf :=
  (source varName).toOption

/-! ## The configuration -/

/-- `ensure_cuda_requested_configuration`, in a build with or without the feature `CUDA`. -/
def ensureCudaRequestedConfiguration (cudaFeature : Bool) (useCuda : Bool)
    (cudaDeviceId : Option UInt32) : Except BoxError ProverBackend :=
  if ¬ useCuda then
    if cudaDeviceId.isSome then
      .error (.other (ENV_ZKPOW_CUDA_DEVICE_ID ++ " is only valid when " ++ ENV_ZKPOW_USE_CUDA ++
        "=1"))
    else .ok .cpu
  else if cudaFeature then .ok .cuda
  else .error (.other (ENV_ZKPOW_USE_CUDA ++
    "=1 requires building zkpow-host with `--features CUDA`"))

/-- The backend a session runs on: nothing is proved in execute-only mode. -/
def sessionBackend (executeOnly : Bool) (configured : ProverBackend) : ProverBackend :=
  if executeOnly ∧ configured = .cpu then .mock else configured

theorem sessionBackend_true_ne_cpu (configured : ProverBackend) :
    sessionBackend true configured ≠ .cpu := by
  cases configured <;> decide

def configFromSource (cudaFeature : Bool) (dbPathDefault : PathBuf) (source : EnvSource) :
    Except BoxError ProofGenerationConfig := do
  let useCuda ← parseBoolEnv source ENV_ZKPOW_USE_CUDA
  let cudaDeviceId ← parseU32Env source ENV_ZKPOW_CUDA_DEVICE_ID
  let executeOnly ← parseBoolEnv source ENV_ZKPOW_EXECUTE_ONLY
  let generateGroth16 ← parseBoolEnv source ENV_ZKPOW_GENERATE_GROTH16
  if executeOnly ∧ generateGroth16 then
    .error (.other (ENV_ZKPOW_GENERATE_GROTH16 ++ " cannot be enabled when " ++
      ENV_ZKPOW_EXECUTE_ONLY ++ "=1"))
  else
    let numHeaders ← parseU32EnvOr source ENV_ZKPOW_BATCH_SIZE DEFAULT_BATCH_SIZE
    let batchCount ← parseU32EnvOr source ENV_ZKPOW_BATCH_COUNT DEFAULT_BATCH_COUNT
    let configuredBackend ← ensureCudaRequestedConfiguration cudaFeature useCuda cudaDeviceId
    return {
      prevProofPath := parsePathEnv source ENV_ZKPOW_PREV_PROOF
      trustedStartHeight := none
      numHeaders := numHeaders
      batchCount := batchCount
      dbPath := (parsePathEnv source ENV_ZKPOW_DB_PATH).getD dbPathDefault
      outputDir := (parsePathEnv source ENV_ZKPOW_OUTPUT_DIR).getD "."
      generateGroth16 := generateGroth16
      executeOnly := executeOnly
      proverBackend := sessionBackend executeOnly configuredBackend
      cudaDeviceId := cudaDeviceId }

/-- What every configuration of a session satisfies. -/
structure ProofGenerationConfig.Valid (config : ProofGenerationConfig) : Prop where
  trustedStartHeight : config.trustedStartHeight = none
  groth16 : config.executeOnly = true → config.generateGroth16 = false
  backend : config.executeOnly = true → config.proverBackend ≠ .cpu
  mock : config.executeOnly = false → config.proverBackend ≠ .mock

theorem ensureCudaRequestedConfiguration_ne_mock {cudaFeature useCuda : Bool}
    {cudaDeviceId : Option UInt32} {backend : ProverBackend}
    (h : ensureCudaRequestedConfiguration cudaFeature useCuda cudaDeviceId = .ok backend) :
    backend ≠ .mock := by
  unfold ensureCudaRequestedConfiguration at h
  split at h
  · split at h
    · cases h
    · rw [← Except.ok.inj h]
      decide
  split at h
  · rw [← Except.ok.inj h]
    decide
  · cases h

/-- Where the modes and the backend of a configuration come from. -/
theorem configFromSource_ok {cudaFeature : Bool} {dbPathDefault : PathBuf} {source : EnvSource}
    {config : ProofGenerationConfig}
    (h : configFromSource cudaFeature dbPathDefault source = .ok config) :
    config.trustedStartHeight = none ∧
      ¬ (config.executeOnly = true ∧ config.generateGroth16 = true) ∧
      ∃ useCuda configured,
        ensureCudaRequestedConfiguration cudaFeature useCuda config.cudaDeviceId =
          .ok configured ∧
        config.proverBackend = sessionBackend config.executeOnly configured := by
  unfold configFromSource at h
  obtain ⟨useCuda, _, h⟩ := bind_ok.1 h
  obtain ⟨cudaDeviceId, _, h⟩ := bind_ok.1 h
  obtain ⟨executeOnly, _, h⟩ := bind_ok.1 h
  obtain ⟨generateGroth16, _, h⟩ := bind_ok.1 h
  split at h
  · cases h
  rename_i hmodes
  obtain ⟨numHeaders, _, h⟩ := bind_ok.1 h
  obtain ⟨batchCount, _, h⟩ := bind_ok.1 h
  obtain ⟨configured, hconfigured, h⟩ := bind_ok.1 h
  rw [← Except.ok.inj h]
  exact ⟨rfl, hmodes, useCuda, configured, hconfigured, rfl⟩

/-- **A configuration from the environment is valid.** -/
theorem configFromSource_spec {cudaFeature : Bool} {dbPathDefault : PathBuf} {source : EnvSource}
    {config : ProofGenerationConfig}
    (h : configFromSource cudaFeature dbPathDefault source = .ok config) : config.Valid := by
  obtain ⟨htrusted, hmodes, useCuda, configured, hconfigured, hbackend⟩ := configFromSource_ok h
  refine ⟨htrusted, fun hexec => ?_, fun hexec => ?_, fun hexec => ?_⟩
  · cases hgroth16 : config.generateGroth16 with
    | false => rfl
    | true => exact absurd ⟨hexec, hgroth16⟩ hmodes
  · rw [hbackend, hexec]
    exact sessionBackend_true_ne_cpu configured
  · rw [hbackend, hexec]
    exact ensureCudaRequestedConfiguration_ne_mock hconfigured

/-- The GPU backend is only configured in a build that has it. -/
theorem configFromSource_cuda {cudaFeature : Bool} {dbPathDefault : PathBuf} {source : EnvSource}
    {config : ProofGenerationConfig}
    (h : configFromSource cudaFeature dbPathDefault source = .ok config)
    (hcuda : config.proverBackend = .cuda) : cudaFeature = true := by
  obtain ⟨-, -, useCuda, configured, hconfigured, hbackend⟩ := configFromSource_ok h
  have hne : configured = .cuda := by
    rw [hbackend] at hcuda
    unfold sessionBackend at hcuda
    split at hcuda
    · cases hcuda
    · exact hcuda
  unfold ensureCudaRequestedConfiguration at hconfigured
  rw [hne] at hconfigured
  split at hconfigured
  · split at hconfigured <;> cases hconfigured
  split at hconfigured
  · assumption
  · cases hconfigured

/-! ## The genesis hash -/

def GENESIS_HASH_HEX : String :=
  "000000000019d6689c085ae165831e934ff763ae46a2a6c172b3f1b60a8ce26f"

/-- The value of a hexadecimal digit. -/
def hexDigit (c : Char) : Option Nat :=
  if c.isDigit then some (c.toNat - '0'.toNat)
  else if 'a' ≤ c ∧ c ≤ 'f' then some (c.toNat - 'a'.toNat + 10)
  else if 'A' ≤ c ∧ c ≤ 'F' then some (c.toNat - 'A'.toNat + 10)
  else none

/-- `hex::decode`. -/
def hexDecode : List Char → Option Bytes
  | [] => some []
  | [_] => none
  | c :: d :: cs => do
    let hi ← hexDigit c
    let lo ← hexDigit d
    let bytes ← hexDecode cs
    return UInt8.ofNat (16 * hi + lo) :: bytes

def parseGenesisHash : Except BoxError BlockHash :=
  match hexDecode GENESIS_HASH_HEX.toList with
  | none => .error (.other "invalid genesis hash hex")
  | some bytes =>
    if bytes.length = 32 then .ok ((Codec.array 32).dec bytes.reverse)
    else .error (.other "genesis hash should be 32 bytes")

/-- The genesis block hash, in internal byte order. -/
def GENESIS_HASH : BlockHash := #v[
  0x6f, 0xe2, 0x8c, 0x0a, 0xb6, 0xf1, 0xb3, 0x72, 0xc1, 0xa6, 0xa2, 0x46, 0xae, 0x63, 0xf7, 0x4f,
  0x93, 0x1e, 0x83, 0x65, 0xe1, 0x5a, 0x08, 0x9c, 0x68, 0xd6, 0x19, 0x00, 0x00, 0x00, 0x00, 0x00]

theorem parseGenesisHash_eq : parseGenesisHash = .ok GENESIS_HASH := by decide +kernel

end Zkpow.Host
