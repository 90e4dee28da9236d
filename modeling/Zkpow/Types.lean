import Mathlib.Tactic

/-!
# Consensus types

The data model of `crates/core` (`types.rs`, `brand.rs`, `lib.rs`, `state.rs`).

Machine integers are Lean's fixed-width ones, so `+` on `u32` wraps as it does in the release
profile both binaries are built with.  `usize` is 64 bits on the host and in the zkVM and only
ever counts list elements or indexes them; it is `Nat`.  The branded newtypes are
`repr(transparent)`, and are abbreviations here.
-/

set_option autoImplicit false

namespace Zkpow

/-- `[u8; 32]`. -/
abbrev Bytes32 := Vector UInt8 32

/-- `u256`: four little-endian `u64` limbs. -/
structure U256 where
  limbs : Vector UInt64 4
  deriving DecidableEq, Repr

instance : Inhabited U256 := ⟨⟨Vector.replicate 4 0⟩⟩

abbrev Target := U256
abbrev ChainWork := U256
abbrev BlockTimestamp := UInt32
abbrev CompactTarget := UInt32
abbrev BlockHash := Bytes32

/-- Timestamps are ordered as numbers. -/
instance timestampOrder : LinearOrder UInt32 where
  le_refl _ := UInt32.le_refl _
  le_trans _ _ _ := UInt32.le_trans
  le_antisymm _ _ := UInt32.le_antisymm
  le_total := UInt32.le_total
  lt_iff_le_not_ge a b := by
    rw [UInt32.lt_iff_toNat_lt, UInt32.le_iff_toNat_le, UInt32.le_iff_toNat_le]
    omega
  toDecidableLE := inferInstance
  toDecidableEq := inferInstance
  toDecidableLT := inferInstance

theorem toNat_add_one {x : UInt32} (h : x.toNat + 1 < 2 ^ 32) : (x + 1).toNat = x.toNat + 1 := by
  rw [UInt32.toNat_add]
  exact Nat.mod_eq_of_lt h

/-- Sliding window size used for median-time-past checks. -/
def WINDOW_SIZE : Nat := 11

/-- Number of blocks per difficulty retarget epoch. -/
def EPOCH_LENGTH : UInt32 := 2016

/-- Expected seconds between consecutive blocks. -/
def TARGET_BLOCK_TIME : UInt32 := 600

def EXPECTED_EPOCH_TIMESPAN : UInt32 := EPOCH_LENGTH * TARGET_BLOCK_TIME

def MIN_EPOCH_TIMESPAN : Int := (EXPECTED_EPOCH_TIMESPAN / 4).toNat

def MAX_EPOCH_TIMESPAN : Int := (EXPECTED_EPOCH_TIMESPAN * 4).toNat

/-- Mainnet PoW limit in compact form. -/
def GENESIS_NBITS : CompactTarget := 0x1d00ffff

/-- Mainnet PoW limit as an expanded target. -/
def GENESIS_TARGET : Target := ⟨#v[0, 0, 0, 0x00000000FFFF0000]⟩

@[simp] theorem WINDOW_SIZE_eq : WINDOW_SIZE = 11 := rfl

theorem WINDOW_SIZE_pos : 0 < WINDOW_SIZE := Nat.succ_pos _

theorem mod_EPOCH_LENGTH_eq_zero {height : UInt32} :
    height % EPOCH_LENGTH = 0 ↔ height.toNat % 2016 = 0 := by
  rw [← UInt32.toNat_inj, UInt32.toNat_mod]
  rfl

@[simp] theorem EXPECTED_EPOCH_TIMESPAN_toNat : EXPECTED_EPOCH_TIMESPAN.toNat = 1209600 := by
  decide

@[simp] theorem MIN_EPOCH_TIMESPAN_eq : MIN_EPOCH_TIMESPAN = 302400 := by decide

@[simp] theorem MAX_EPOCH_TIMESPAN_eq : MAX_EPOCH_TIMESPAN = 4838400 := by decide

/-! ## Headers -/

structure Header where
  version : UInt32
  prevBlockhash : BlockHash
  merkleRoot : Bytes32
  timestamp : BlockTimestamp
  compactTarget : CompactTarget
  nonce : UInt32
  deriving DecidableEq, Repr

/-- Prover-supplied fields for a new header. -/
structure NewHeader where
  version : UInt32
  merkleRoot : Bytes32
  timestamp : BlockTimestamp
  nonce : UInt32
  deriving DecidableEq, Repr

/-- Extract the prover-supplied subset of fields from a full header. -/
def NewHeader.fromHeader (header : Header) : NewHeader where
  version := header.version
  merkleRoot := header.merkleRoot
  timestamp := header.timestamp
  nonce := header.nonce

/-- Materialize a full header using authenticated chain context. -/
def NewHeader.intoHeader (h : NewHeader) (prevBlockhash : BlockHash)
    (compactTarget : CompactTarget) : Header where
  version := h.version
  prevBlockhash := prevBlockhash
  merkleRoot := h.merkleRoot
  timestamp := h.timestamp
  compactTarget := compactTarget
  nonce := h.nonce

/-! ## Claims and continuation data -/

/-- The verifier-visible portion of a validated chain segment. -/
structure Claim where
  genesisHash : BlockHash
  tipHash : BlockHash
  chainWork : ChainWork
  height : UInt32
  deriving DecidableEq, Repr

/-- Continuation data carried forward at each proof step, committed only as a digest. -/
structure ContinuationData where
  currentNbits : CompactTarget
  currentWork : ChainWork
  currentTarget : Target
  epochStartTimestamp : BlockTimestamp
  timestamps : Vector BlockTimestamp WINDOW_SIZE
  deriving DecidableEq, Repr

/-- Complete validation state, serialized between recursive iterations. -/
structure State where
  header : Header
  blockHash : BlockHash
  genesisHash : BlockHash
  currentNbits : CompactTarget
  height : UInt32
  chainWork : ChainWork
  currentWork : ChainWork
  currentTarget : Target
  epochStartTimestamp : BlockTimestamp
  timestamps : Vector BlockTimestamp WINDOW_SIZE
  deriving DecidableEq, Repr

/-- Extract the verifier-visible public claim from this state. -/
def State.publicClaim (s : State) : Claim where
  genesisHash := s.genesisHash
  tipHash := s.blockHash
  chainWork := s.chainWork
  height := s.height

def ContinuationData.fromState (s : State) : ContinuationData where
  currentNbits := s.currentNbits
  currentWork := s.currentWork
  currentTarget := s.currentTarget
  epochStartTimestamp := s.epochStartTimestamp
  timestamps := s.timestamps

/-- The claim and the continuation data together leave only `header` of a state open. -/
theorem State.eq_of_claim_continuation {s t : State} (hc : s.publicClaim = t.publicClaim)
    (hd : ContinuationData.fromState s = ContinuationData.fromState t) :
    s = { t with header := s.header } := by
  cases s
  cases t
  simp only [State.publicClaim, ContinuationData.fromState, Claim.mk.injEq,
    ContinuationData.mk.injEq] at hc hd
  obtain ⟨rfl, rfl, rfl, rfl⟩ := hc
  obtain ⟨rfl, rfl, rfl, rfl, rfl⟩ := hd
  rfl

/-! ## Errors -/

/-- Parse errors for fixed-width serialized core types. -/
inductive ParseError where
  | invalidLength (expected actual : Nat)
  | misaligned (required : Nat)
  deriving DecidableEq, Repr

/-- Target errors that occur during arithmetic. -/
inductive TargetError where
  | targetTooLarge
  deriving DecidableEq, Repr

/-- Validation status emitted by the program on failure. -/
inductive ValidationErrorCode where
  | headerPayloadLengthInvalid
  | powInsufficient
  | timestampTooOld
  | genesisHashMismatch
  deriving DecidableEq, Repr

inductive PublicValuesParseError where
  | invalidLength (actual : Nat)
  | unknownErrorCode (code : UInt8)
  deriving DecidableEq, Repr

/-- The committed byte representation of the error code. -/
def ValidationErrorCode.asByte : ValidationErrorCode → UInt8
  | .headerPayloadLengthInvalid => 1
  | .powInsufficient => 2
  | .timestampTooOld => 3
  | .genesisHashMismatch => 4

def ValidationErrorCode.tryFrom (value : UInt8) :
    Except PublicValuesParseError ValidationErrorCode :=
  if value = 1 then .ok .headerPayloadLengthInvalid
  else if value = 2 then .ok .powInsufficient
  else if value = 3 then .ok .timestampTooOld
  else if value = 4 then .ok .genesisHashMismatch
  else .error (.unknownErrorCode value)

theorem ValidationErrorCode.asByte_ne_zero (c : ValidationErrorCode) : c.asByte ≠ 0 := by
  cases c <;> decide

/-- The error codes and the bytes accepted for them correspond. -/
theorem ValidationErrorCode.tryFrom_ok_iff {value : UInt8} {c : ValidationErrorCode} :
    tryFrom value = .ok c ↔ value = c.asByte := by
  unfold tryFrom
  constructor
  · intro h
    split at h
    · cases h; assumption
    split at h
    · cases h; assumption
    split at h
    · cases h; assumption
    split at h
    · cases h; assumption
    cases h
  · rintro rfl
    cases c <;> rfl

/-- Failure payload returned by `State::apply_headers`. -/
structure ApplyFailure where
  lastValidState : State
  errorCode : ValidationErrorCode
  /-- Absolute chain height of the failed header. -/
  failureHeight : UInt32
  deriving DecidableEq, Repr

end Zkpow
