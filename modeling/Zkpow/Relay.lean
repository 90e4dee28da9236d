import Mathlib.Tactic
import Zkpow.PublicValues

/-!
# The header relay contract

`contracts/src/BitcoinHeaderRelay.sol`: a contract that stores the tips a verifier vouches for, the
latest one and a ring of recent ones.  `uint256` is `BitVec 256` with the checked operators of
Solidity 0.8, `bytes32` is an array of 32 bytes, a mapping is a function.  Gas is not modelled.

* `decodePublicValues_ok` — the decoder accepts exactly the packed big-endian summaries;
* `decodePublicValues_inverts_packed` — it inverts the packing, in the documented field order;
* `submit_ok` — the calls `submit` accepts, and what they do.
-/

set_option autoImplicit false

namespace Zkpow.Relay

open ByteCodec ExceptFold

/-! ## Words and calldata -/

abbrev Uint256 := BitVec 256
abbrev Address := BitVec 160

/-- The number a word of calldata spells, most significant byte first. -/
def Uint256.ofWord (word : Bytes32) : Uint256 := BitVec.ofNat 256 (ofLE word.toList.reverse)

/-- A `bytes calldata` argument: a range the ABI decoder has checked to lie in the calldata. -/
structure CalldataBytes where
  calldata : Bytes
  offset : Nat
  length : Nat
  inBounds : offset + length ≤ calldata.length

def CalldataBytes.bytes (data : CalldataBytes) : Bytes :=
  slice data.calldata data.offset (data.offset + data.length)

/-- An argument that is all of the calldata. -/
def CalldataBytes.ofBytes (b : Bytes) : CalldataBytes := ⟨b, 0, b.length, by omega⟩

/-- `calldataload`: the 32 bytes at a position, zeros past the end of the calldata. -/
def calldataload (calldata : Bytes) (position : Nat) : Bytes32 :=
  Vector.ofFn fun i => calldata.getD (position + i) 0

/-- `shr(224, calldataload(add(data.offset, offset)))`. -/
def readU32 (data : CalldataBytes) (offset : Nat) : UInt32 :=
  UInt32.ofNat (Uint256.ofWord (calldataload data.calldata (data.offset + offset)) >>> 224).toNat

def readBytes32 (data : CalldataBytes) (offset : Nat) : Bytes32 :=
  calldataload data.calldata (data.offset + offset)

def readU256 (data : CalldataBytes) (offset : Nat) : Uint256 :=
  Uint256.ofWord (calldataload data.calldata (data.offset + offset))

/-! ## Records -/

/-- Contract-facing public values for one accepted proof submission. -/
structure PublicValuesV1 where
  schemaVersion : UInt32
  headerVersion : UInt32
  genesisBlockHash : Bytes32
  currentBlockHash : Bytes32
  prevBlockHash : Bytes32
  height : UInt32
  cumulativeChainWork : Uint256
  timestamp : UInt32
  nBits : UInt32
  nonce : UInt32
  merkleRoot : Bytes32
  medianTimePastWindow : Vector UInt32 11
  deriving DecidableEq, Repr

/-- Summary stored for each accepted tip. -/
structure HeaderRecord where
  schemaVersion : UInt32
  headerVersion : UInt32
  genesisBlockHash : Bytes32
  currentBlockHash : Bytes32
  prevBlockHash : Bytes32
  merkleRoot : Bytes32
  cumulativeChainWork : Uint256
  height : UInt32
  timestamp : UInt32
  nBits : UInt32
  nonce : UInt32
  medianTimePastWindow : Vector UInt32 11
  deriving DecidableEq, Repr

/-- The record `submit` stores for a summary. -/
def HeaderRecord.ofSummary (summary : PublicValuesV1) : HeaderRecord where
  schemaVersion := summary.schemaVersion
  headerVersion := summary.headerVersion
  genesisBlockHash := summary.genesisBlockHash
  currentBlockHash := summary.currentBlockHash
  prevBlockHash := summary.prevBlockHash
  merkleRoot := summary.merkleRoot
  cumulativeChainWork := summary.cumulativeChainWork
  height := summary.height
  timestamp := summary.timestamp
  nBits := summary.nBits
  nonce := summary.nonce
  medianTimePastWindow := summary.medianTimePastWindow

/-- The record of storage that was never written. -/
def HeaderRecord.zero : HeaderRecord where
  schemaVersion := 0
  headerVersion := 0
  genesisBlockHash := Vector.replicate 32 0
  currentBlockHash := Vector.replicate 32 0
  prevBlockHash := Vector.replicate 32 0
  merkleRoot := Vector.replicate 32 0
  cumulativeChainWork := 0
  height := 0
  timestamp := 0
  nBits := 0
  nonce := 0
  medianTimePastWindow := Vector.replicate 11 0

/-- Why a call reverts: the errors of the contract, the data of a verifier that reverted, and the
panics of checked arithmetic. -/
inductive Revert where
  | verifier (data : Bytes)
  | invalidPublicValuesLength (actual : Nat)
  | unsupportedSchemaVersion (version : UInt32)
  | genesisHashMismatch (expected actual : Bytes32)
  | nonIncreasingHeight (currentHeight newHeight : UInt32)
  | nonIncreasingChainWork (currentChainWork newChainWork : Uint256)
  | prevHashMismatch (expected actual : Bytes32)
  | capacityZero
  | zeroAddress
  | offsetOutOfRange (offset available : Uint256)
  | slotOutOfRange (slot capacity : Uint256)
  | panic (code : Nat)
  deriving DecidableEq, Repr

/-- The event of an accepted submission. -/
structure HeaderAccepted where
  slot : Uint256
  height : UInt32
  currentBlockHash : Bytes32
  prevBlockHash : Bytes32
  genesisBlockHash : Bytes32
  cumulativeChainWork : Uint256
  proofHash : Bytes32
  deriving DecidableEq, Repr

/-! ## Checked arithmetic -/

def checkedAdd (a b : Uint256) : Except Revert Uint256 :=
  if a.toNat + b.toNat < 2 ^ 256 then .ok (a + b) else .error (.panic 0x11)

def checkedSub (a b : Uint256) : Except Revert Uint256 :=
  if b.toNat ≤ a.toNat then .ok (a - b) else .error (.panic 0x11)

def checkedMod (a b : Uint256) : Except Revert Uint256 :=
  if b.toNat = 0 then .error (.panic 0x12) else .ok (a % b)

theorem checkedSub_ok {a b : Uint256} (h : b.toNat ≤ a.toNat) :
    ∃ c, checkedSub a b = .ok c ∧ c.toNat = a.toNat - b.toNat :=
  ⟨a - b, if_pos h, BitVec.toNat_sub_of_le (BitVec.le_def.2 h)⟩

theorem checkedMod_ok {a b : Uint256} (h : 0 < b.toNat) :
    ∃ c, checkedMod a b = .ok c ∧ c.toNat = a.toNat % b.toNat :=
  ⟨a % b, if_neg (Nat.ne_of_gt h), BitVec.toNat_umod⟩

/-! ## The contract -/

/-- The immutable deployment parameters.  The constructor refuses a capacity of zero. -/
structure BitcoinHeaderRelay where
  VERIFIER : Address
  PROGRAM_V_KEY : Bytes32
  GENESIS_BLOCK_HASH : Bytes32
  RECENT_HEADER_CAPACITY : Uint256
  capacity_pos : 0 < RECENT_HEADER_CAPACITY.toNat

/-- The storage of a relay. -/
structure RelayStorage where
  acceptedCount : Uint256
  hasTip : Bool
  latestProofHash : Bytes32
  latestTip : HeaderRecord
  recentHeaders : Uint256 → HeaderRecord

/-- The storage right after deployment. -/
def RelayStorage.initial : RelayStorage where
  acceptedCount := 0
  hasTip := false
  latestProofHash := Vector.replicate 32 0
  latestTip := .zero
  recentHeaders := fun _ => .zero

/-- A call of `submit`, and what `verifyProof` of the contract at an address does during it. -/
structure SubmitCall where
  publicValues : CalldataBytes
  proofBytes : CalldataBytes
  verifyProof : Address → Bytes32 → Bytes → Bytes → Except Bytes Unit

/-! ### Reading the summary -/

/-- The window and the offset after `n` rounds of
`summary.medianTimePastWindow[i] = _readU32(publicValues, offset); offset += 4;`. -/
def readWindow (data : CalldataBytes) (offset n : Nat) : Vector UInt32 11 × Nat :=
  (List.range n).foldl
    (fun s i => (s.1.setIfInBounds i (readU32 data s.2), s.2 + 4)) (Vector.replicate 11 0, offset)

/-- The reads of `_decodePublicValues`, each at the offset that the ones before it leave. -/
def readPublicValues (publicValues : CalldataBytes) : PublicValuesV1 :=
  let offset := 0
  let schemaVersion := readU32 publicValues offset
  let offset := offset + 4
  let headerVersion := readU32 publicValues offset
  let offset := offset + 4
  let genesisBlockHash := readBytes32 publicValues offset
  let offset := offset + 32
  let currentBlockHash := readBytes32 publicValues offset
  let offset := offset + 32
  let prevBlockHash := readBytes32 publicValues offset
  let offset := offset + 32
  let height := readU32 publicValues offset
  let offset := offset + 4
  let cumulativeChainWork := readU256 publicValues offset
  let offset := offset + 32
  let timestamp := readU32 publicValues offset
  let offset := offset + 4
  let nBits := readU32 publicValues offset
  let offset := offset + 4
  let nonce := readU32 publicValues offset
  let offset := offset + 4
  let merkleRoot := readBytes32 publicValues offset
  let offset := offset + 32
  let medianTimePastWindow := (readWindow publicValues offset 11).1
  { schemaVersion, headerVersion, genesisBlockHash, currentBlockHash, prevBlockHash, height,
    cumulativeChainWork, timestamp, nBits, nonce, merkleRoot, medianTimePastWindow }

/-- `_decodePublicValues`. -/
def decodePublicValues (publicValues : CalldataBytes) : Except Revert PublicValuesV1 :=
  if publicValues.length ≠ 228 then .error (.invalidPublicValuesLength publicValues.length)
  else .ok (readPublicValues publicValues)

theorem readWindow_succ (data : CalldataBytes) (offset n : Nat) :
    readWindow data offset (n + 1) =
      ((readWindow data offset n).1.setIfInBounds n (readU32 data (readWindow data offset n).2),
        (readWindow data offset n).2 + 4) := by
  rw [readWindow, List.range_succ, List.foldl_append]
  rfl

/-- After `n` rounds the offset is past `n` entries, and those entries are read. -/
theorem readWindow_spec (data : CalldataBytes) (offset n : Nat) :
    (readWindow data offset n).2 = offset + 4 * n ∧
      ∀ (i : Nat) (hi : i < 11), i < n →
        (readWindow data offset n).1[i] = readU32 data (offset + i * 4) := by
  induction n with
  | zero => exact ⟨rfl, fun i _ h => absurd h (Nat.not_lt_zero i)⟩
  | succ n ih =>
    obtain ⟨hoffset, hread⟩ := ih
    rw [readWindow_succ]
    refine ⟨by simp only [hoffset]; omega, fun i hi hin => ?_⟩
    simp only [Vector.getElem_setIfInBounds, hoffset]
    by_cases hni : n = i
    · rw [if_pos hni, hni, Nat.mul_comm]
    · rw [if_neg hni]
      exact hread i hi (by omega)

/-- The offsets add up to the position of each field. -/
theorem readPublicValues_eq (publicValues : CalldataBytes) : readPublicValues publicValues = {
    schemaVersion := readU32 publicValues 0
    headerVersion := readU32 publicValues 4
    genesisBlockHash := readBytes32 publicValues 8
    currentBlockHash := readBytes32 publicValues 40
    prevBlockHash := readBytes32 publicValues 72
    height := readU32 publicValues 104
    cumulativeChainWork := readU256 publicValues 108
    timestamp := readU32 publicValues 140
    nBits := readU32 publicValues 144
    nonce := readU32 publicValues 148
    merkleRoot := readBytes32 publicValues 152
    medianTimePastWindow :=
      Vector.ofFn fun i : Fin 11 => readU32 publicValues (184 + i * 4) } := by
  have hwindow : (readWindow publicValues 184 11).1 =
      Vector.ofFn fun i : Fin 11 => readU32 publicValues (184 + i * 4) := by
    ext i hi
    rw [(readWindow_spec publicValues 184 11).2 i hi hi, Vector.getElem_ofFn]
  unfold readPublicValues
  simp only [Nat.zero_add, Nat.reduceAdd, hwindow]

/-! ## The packed summary -/

/-- `uint256`, most significant byte first. -/
def Uint256.codec : Codec Uint256 where
  width := 32
  enc a := (natLE 32 a.toNat).reverse
  dec b := BitVec.ofNat 256 (ofLE b.reverse)
  enc_length a := by rw [List.length_reverse, length_natLE]
  dec_enc a := by
    apply BitVec.eq_of_toNat_eq
    rw [List.reverse_reverse, ofLE_natLE, BitVec.toNat_ofNat, Nat.mod_mod_of_dvd _ (by norm_num)]
    exact Nat.mod_eq_of_lt a.isLt
  enc_dec b h := by
    have hlt := ofLE_lt b.reverse
    have hlen : b.reverse.length = 32 := by rw [List.length_reverse, h]
    rw [hlen] at hlt
    rw [BitVec.toNat_ofNat, Nat.mod_eq_of_lt (by omega), ← hlen, natLE_ofLE, List.reverse_reverse]

/-- The packed binary summary, 228 bytes. -/
def PublicValuesV1.codec : Codec PublicValuesV1 :=
  (Codec.u32.reverse.prod (Codec.u32.reverse.prod ((Codec.array 32).prod ((Codec.array 32).prod
    ((Codec.array 32).prod (Codec.u32.reverse.prod (Uint256.codec.prod (Codec.u32.reverse.prod
      (Codec.u32.reverse.prod (Codec.u32.reverse.prod ((Codec.array 32).prod
        (Codec.vector Codec.u32.reverse 11)))))))))))).iso
    (fun (s, v, g, c, p, h, w, t, b, n, m, ts) => ⟨s, v, g, c, p, h, w, t, b, n, m, ts⟩)
    (fun p => (p.schemaVersion, p.headerVersion, p.genesisBlockHash, p.currentBlockHash,
      p.prevBlockHash, p.height, p.cumulativeChainWork, p.timestamp, p.nBits, p.nonce,
      p.merkleRoot, p.medianTimePastWindow))
    (fun _ => rfl) (fun _ => rfl)

@[simp] theorem width_Uint256 : Uint256.codec.width = 32 := rfl
@[simp] theorem width_PublicValuesV1 : PublicValuesV1.codec.width = 228 := rfl

/-- The packed binary form of a summary. -/
def PublicValuesV1.packed (summary : PublicValuesV1) : Bytes := PublicValuesV1.codec.enc summary

theorem CalldataBytes.length_bytes (data : CalldataBytes) : data.bytes.length = data.length := by
  rw [CalldataBytes.bytes, length_slice _ _ _ data.inBounds]
  omega

theorem CalldataBytes.slice_bytes {data : CalldataBytes} {lo hi : Nat} (h : hi ≤ data.length) :
    slice data.bytes lo hi = slice data.calldata (data.offset + lo) (data.offset + hi) :=
  slice_slice (by omega)

/-- What is in bounds of a word read from calldata. -/
theorem take_calldataload {calldata : Bytes} {position n : Nat} (hn : n ≤ 32)
    (h : position + n ≤ calldata.length) :
    (calldataload calldata position).toList.take n = slice calldata position (position + n) := by
  apply List.ext_getElem
  · rw [List.length_take, Vector.length_toList, length_slice _ _ _ h]
    omega
  · intro i hi hi'
    have hlt : i < n := by
      rw [List.length_take] at hi
      omega
    have hin : position + i < calldata.length := by omega
    simp [calldataload, slice, List.getD_eq_getElem?_getD, hin]

theorem readBytes32_eq {data : CalldataBytes} {offset : Nat} (h : offset + 32 ≤ data.length) :
    readBytes32 data offset = (Codec.array 32).dec (slice data.bytes offset (offset + 32)) := by
  have hin := data.inBounds
  have hword : (calldataload data.calldata (data.offset + offset)).toList.take 32 =
      slice data.calldata (data.offset + offset) (data.offset + offset + 32) :=
    take_calldataload (Nat.le_refl 32) (by omega)
  rw [List.take_of_length_le (by rw [Vector.length_toList]), Nat.add_assoc] at hword
  rw [CalldataBytes.slice_bytes h, ← hword]
  exact (array_dec_toList _).symm

theorem readU256_eq {data : CalldataBytes} {offset : Nat} (h : offset + 32 ≤ data.length) :
    readU256 data offset = Uint256.codec.dec (slice data.bytes offset (offset + 32)) := by
  have hlen : (slice data.bytes offset (offset + 32)).length = 32 := by
    rw [length_slice _ _ _ (by rw [data.length_bytes]; exact h)]
    omega
  have hword := readBytes32_eq h
  unfold readBytes32 at hword
  rw [readU256, Uint256.ofWord, hword, toList_array_dec hlen]
  rfl

/-- Shifting a word right by 224 bits keeps its first four bytes. -/
theorem toNat_ofWord_shift (word : Bytes32) :
    (Uint256.ofWord word >>> 224).toNat = ofLE (word.toList.take 4).reverse := by
  have hsplit := List.take_append_drop 4 word.toList
  have hlow := ofLE_lt (word.toList.drop 4).reverse
  have hall := ofLE_lt word.toList.reverse
  rw [List.length_reverse, List.length_drop, Vector.length_toList] at hlow
  rw [List.length_reverse, Vector.length_toList] at hall
  rw [BitVec.toNat_ushiftRight, Uint256.ofWord, BitVec.toNat_ofNat, Nat.mod_eq_of_lt (by omega),
    Nat.shiftRight_eq_div_pow, ← hsplit, List.reverse_append, ofLE_append, List.length_reverse,
    List.length_drop, Vector.length_toList, hsplit,
    show (2 : Nat) ^ 224 = 256 ^ (32 - 4) by norm_num,
    Nat.add_mul_div_left _ _ (by positivity), Nat.div_eq_of_lt hlow, Nat.zero_add]

theorem readU32_eq {data : CalldataBytes} {offset : Nat} (h : offset + 4 ≤ data.length) :
    readU32 data offset = Codec.u32.reverse.dec (slice data.bytes offset (offset + 4)) := by
  have hin := data.inBounds
  rw [readU32, toNat_ofWord_shift, take_calldataload (by norm_num) (by omega),
    CalldataBytes.slice_bytes h, Nat.add_assoc]
  rfl

theorem decodePublicValues_of_length {data : CalldataBytes} (h : data.length = 228) :
    decodePublicValues data = .ok (PublicValuesV1.codec.dec data.bytes) := by
  have hwindow : ∀ i : Fin 11, readU32 data (184 + i * 4) = Codec.u32.reverse.dec
      (slice (slice data.bytes 184 228) (i * 4) ((i + 1) * 4)) := fun i => by
    have hi : i.val < 11 := i.isLt
    rw [readU32_eq (by omega), slice_slice (by omega)]
    congr 2
    omega
  unfold decodePublicValues
  rw [if_neg (not_not.2 h), readPublicValues_eq]
  simp only [hwindow]
  rw [readU32_eq (by omega), readU32_eq (by omega), readU32_eq (by omega), readU32_eq (by omega),
    readU32_eq (by omega), readU32_eq (by omega), readBytes32_eq (by omega),
    readBytes32_eq (by omega), readBytes32_eq (by omega), readBytes32_eq (by omega),
    readU256_eq (by omega)]
  simp [PublicValuesV1.codec, Codec.iso, Codec.prod, slice_slice, Codec.vector]

/-- **The decoder accepts exactly the packed summaries.** -/
theorem decodePublicValues_ok {data : CalldataBytes} {summary : PublicValuesV1} :
    decodePublicValues data = .ok summary ↔ data.bytes = summary.packed := by
  by_cases h : data.length = 228
  · have hlen : data.bytes.length = PublicValuesV1.codec.width := data.length_bytes.trans h
    rw [decodePublicValues_of_length h, Except.ok.injEq]
    constructor
    · intro hdec
      rw [← hdec]
      exact (PublicValuesV1.codec.enc_dec _ hlen).symm
    · intro hbytes
      rw [hbytes]
      exact PublicValuesV1.codec.dec_enc summary
  · unfold decodePublicValues
    rw [if_pos h]
    constructor
    · intro hdec; cases hdec
    · intro hbytes
      rw [← data.length_bytes, hbytes] at h
      exact absurd (PublicValuesV1.codec.enc_length summary) h

/-- The packed form, field by field: big-endian words and bare hashes. -/
theorem PublicValuesV1.packed_eq (summary : PublicValuesV1) :
    summary.packed =
      Codec.u32.reverse.enc summary.schemaVersion ++ Codec.u32.reverse.enc summary.headerVersion ++
      summary.genesisBlockHash.toList ++ summary.currentBlockHash.toList ++
      summary.prevBlockHash.toList ++ Codec.u32.reverse.enc summary.height ++
      Uint256.codec.enc summary.cumulativeChainWork ++ Codec.u32.reverse.enc summary.timestamp ++
      Codec.u32.reverse.enc summary.nBits ++ Codec.u32.reverse.enc summary.nonce ++
      summary.merkleRoot.toList ++
      summary.medianTimePastWindow.toList.flatMap Codec.u32.reverse.enc := by
  simp only [List.append_assoc]
  rfl

/-- **The decoder inverts the documented packing**, wherever in the calldata the argument lies:
a packed summary is read back, what is read re-packs to the same bytes, and an argument of another
length reverts. -/
theorem decodePublicValues_inverts_packed (data : CalldataBytes) (summary : PublicValuesV1) :
    summary.packed =
        Codec.u32.reverse.enc summary.schemaVersion ++
        Codec.u32.reverse.enc summary.headerVersion ++ summary.genesisBlockHash.toList ++
        summary.currentBlockHash.toList ++ summary.prevBlockHash.toList ++
        Codec.u32.reverse.enc summary.height ++ Uint256.codec.enc summary.cumulativeChainWork ++
        Codec.u32.reverse.enc summary.timestamp ++ Codec.u32.reverse.enc summary.nBits ++
        Codec.u32.reverse.enc summary.nonce ++ summary.merkleRoot.toList ++
        summary.medianTimePastWindow.toList.flatMap Codec.u32.reverse.enc ∧
      summary.packed.length = 228 ∧
      (data.bytes = summary.packed → decodePublicValues data = .ok summary) ∧
      (data.length = 228 → ∃ read, decodePublicValues data = .ok read ∧ read.packed = data.bytes) ∧
      (data.length ≠ 228 →
        decodePublicValues data = .error (.invalidPublicValuesLength data.length)) := by
  refine ⟨summary.packed_eq, PublicValuesV1.codec.enc_length summary, ?_, ?_, ?_⟩
  · intro hbytes
    exact decodePublicValues_ok.2 hbytes
  · intro hlen
    have hdec := decodePublicValues_of_length hlen
    exact ⟨_, hdec, (decodePublicValues_ok.1 hdec).symm⟩
  · intro hlen
    exact if_pos hlen

/-- A summary with another value in every field. -/
def PublicValuesV1.sample : PublicValuesV1 :=
  ⟨1, 2, .replicate 32 3, .replicate 32 4, .replicate 32 5, 6, 7, 8, 9, 10, .replicate 32 11,
    .ofFn fun i => UInt32.ofNat (12 + i)⟩

/-- The sample between other bytes of the calldata. -/
def CalldataBytes.sample : CalldataBytes where
  calldata := .replicate 4 0xff ++ PublicValuesV1.sample.packed ++ .replicate 28 0xff
  offset := 4
  length := 228
  inBounds := by decide +kernel

/-- The sample is read back, and an argument of no bytes is refused. -/
theorem decodePublicValues_inverts_packed_sample :
    decodePublicValues .sample = .ok .sample ∧
      (∃ read, decodePublicValues .sample = .ok read ∧
        read.packed = CalldataBytes.sample.bytes) ∧
      decodePublicValues (.ofBytes []) = .error (.invalidPublicValuesLength 0) := by
  have h := decodePublicValues_inverts_packed .sample .sample
  have hnone := decodePublicValues_inverts_packed (.ofBytes []) .sample
  exact ⟨h.2.2.1 (by decide +kernel), h.2.2.2.1 rfl, hnone.2.2.2.2 (by decide)⟩

namespace BitcoinHeaderRelay

/-- The constructor. -/
def construct (verifier : Address) (programVKey genesisBlockHash : Bytes32)
    (recentHeaderCapacity : Uint256) : Except Revert BitcoinHeaderRelay :=
  if verifier = 0 then .error .zeroAddress
  else if h : recentHeaderCapacity = 0 then .error .capacityZero
  else .ok {
    VERIFIER := verifier
    PROGRAM_V_KEY := programVKey
    GENESIS_BLOCK_HASH := genesisBlockHash
    RECENT_HEADER_CAPACITY := recentHeaderCapacity
    capacity_pos := Nat.pos_of_ne_zero fun h0 => h (BitVec.eq_of_toNat_eq h0) }

/-- `_validateSummary`. -/
def validateSummary (self : BitcoinHeaderRelay) (st : RelayStorage) (summary : PublicValuesV1) :
    Except Revert Unit :=
  if summary.schemaVersion ≠ 1 then .error (.unsupportedSchemaVersion summary.schemaVersion)
  else if summary.genesisBlockHash ≠ self.GENESIS_BLOCK_HASH then
    .error (.genesisHashMismatch self.GENESIS_BLOCK_HASH summary.genesisBlockHash)
  else if st.hasTip then
    if summary.height ≤ st.latestTip.height then
      .error (.nonIncreasingHeight st.latestTip.height summary.height)
    else if summary.cumulativeChainWork ≤ st.latestTip.cumulativeChainWork then
      .error (.nonIncreasingChainWork st.latestTip.cumulativeChainWork
        summary.cumulativeChainWork)
    else if summary.prevBlockHash ≠ st.latestTip.currentBlockHash then
      .error (.prevHashMismatch st.latestTip.currentBlockHash summary.prevBlockHash)
    else .ok ()
  else .ok ()

/-- Submit a proof-backed header-chain tip. -/
def submit (keccak256 : Bytes → Bytes32) (self : BitcoinHeaderRelay) (st : RelayStorage)
    (call : SubmitCall) : Except Revert (RelayStorage × HeaderAccepted) := do
  (call.verifyProof self.VERIFIER self.PROGRAM_V_KEY call.publicValues.bytes
    call.proofBytes.bytes).mapError .verifier
  let summary ← decodePublicValues call.publicValues
  self.validateSummary st summary
  let slot ← checkedMod st.acceptedCount self.RECENT_HEADER_CAPACITY
  let record := HeaderRecord.ofSummary summary
  let latestProofHash := keccak256 call.proofBytes.bytes
  let acceptedCount ← checkedAdd st.acceptedCount 1
  return ({
      acceptedCount := acceptedCount
      hasTip := true
      latestProofHash := latestProofHash
      latestTip := record
      recentHeaders := Function.update st.recentHeaders slot record },
    { slot := slot
      height := summary.height
      currentBlockHash := summary.currentBlockHash
      prevBlockHash := summary.prevBlockHash
      genesisBlockHash := summary.genesisBlockHash
      cumulativeChainWork := summary.cumulativeChainWork
      proofHash := latestProofHash })

/-- Return the latest accepted tip. -/
def latestTip (st : RelayStorage) : HeaderRecord := st.latestTip

/-- Read a header record by ring-buffer slot. -/
def getHeader (self : BitcoinHeaderRelay) (st : RelayStorage) (slot : Uint256) :
    Except Revert HeaderRecord :=
  if self.RECENT_HEADER_CAPACITY ≤ slot then
    .error (.slotOutOfRange slot self.RECENT_HEADER_CAPACITY)
  else .ok (st.recentHeaders slot)

/-- How many recent headers there are. -/
def available (self : BitcoinHeaderRelay) (st : RelayStorage) : Uint256 :=
  if st.acceptedCount < self.RECENT_HEADER_CAPACITY then st.acceptedCount
  else self.RECENT_HEADER_CAPACITY

/-- `_recentHeaders[(acceptedCount - 1 - offset) % RECENT_HEADER_CAPACITY]`. -/
def recentHeader (self : BitcoinHeaderRelay) (st : RelayStorage) (offset : Uint256) :
    Except Revert HeaderRecord := do
  let last ← checkedSub st.acceptedCount 1
  let index ← checkedSub last offset
  let slot ← checkedMod index self.RECENT_HEADER_CAPACITY
  return st.recentHeaders slot

/-- Read the tip history relative to the latest accepted tip. -/
def getHeaderByOffset (self : BitcoinHeaderRelay) (st : RelayStorage) (offset : Uint256) :
    Except Revert HeaderRecord :=
  if self.available st ≤ offset then .error (.offsetOutOfRange offset (self.available st))
  else self.recentHeader st offset

/-- Return up to `count` accepted headers, newest first. -/
def getRecentHeaders (self : BitcoinHeaderRelay) (st : RelayStorage) (count : Uint256) :
    Except Revert (List HeaderRecord) :=
  if self.available st < count then .error (.offsetOutOfRange count (self.available st))
  else (List.range count.toNat).mapM fun i => self.recentHeader st (BitVec.ofNat 256 i)

end BitcoinHeaderRelay

/-! ## What is accepted -/

/-- A record that may follow another. -/
structure HeaderRecord.Extends (next previous : HeaderRecord) : Prop where
  linked : next.prevBlockHash = previous.currentBlockHash
  height : previous.height < next.height
  work : previous.cumulativeChainWork < next.cumulativeChainWork

/-- The latest tip, if there is one. -/
def RelayStorage.tip (st : RelayStorage) : Option HeaderRecord :=
  if st.hasTip then some st.latestTip else none

/-- A record that a relay with the given tip takes as its next. -/
structure BitcoinHeaderRelay.Acceptable (relay : BitcoinHeaderRelay) (tip : Option HeaderRecord)
    (record : HeaderRecord) : Prop where
  schemaVersion : record.schemaVersion = 1
  genesisBlockHash : record.genesisBlockHash = relay.GENESIS_BLOCK_HASH
  extends_tip : ∀ previous, tip = some previous → record.Extends previous

/-- The verifier lets a call pass. -/
def SubmitCall.Verifies (call : SubmitCall) (self : BitcoinHeaderRelay) : Prop :=
  call.verifyProof self.VERIFIER self.PROGRAM_V_KEY call.publicValues.bytes call.proofBytes.bytes =
    .ok ()

namespace BitcoinHeaderRelay

variable {self : BitcoinHeaderRelay} {st : RelayStorage}

theorem validateSummary_ok {summary : PublicValuesV1} :
    self.validateSummary st summary = .ok () ↔
      self.Acceptable st.tip (HeaderRecord.ofSummary summary) := by
  unfold validateSummary RelayStorage.tip
  by_cases hschema : summary.schemaVersion = 1
  · by_cases hgenesis : summary.genesisBlockHash = self.GENESIS_BLOCK_HASH
    · rw [if_neg (not_not.2 hschema), if_neg (not_not.2 hgenesis)]
      by_cases htip : st.hasTip = true
      · rw [if_pos htip, if_pos htip]
        constructor
        · intro h
          split at h
          · cases h
          split at h
          · cases h
          split at h
          · cases h
          rename_i hheight hwork hprev
          refine ⟨hschema, hgenesis, fun previous hprevious => ?_⟩
          cases hprevious
          exact ⟨not_not.1 hprev, not_le.1 hheight, BitVec.not_le.1 hwork⟩
        · intro h
          have hnext := h.extends_tip _ rfl
          have hheight : st.latestTip.height < summary.height := hnext.height
          have hwork : st.latestTip.cumulativeChainWork < summary.cumulativeChainWork := hnext.work
          have hprev : summary.prevBlockHash = st.latestTip.currentBlockHash := hnext.linked
          rw [if_neg (not_le.2 hheight), if_neg (BitVec.not_le.2 hwork), if_neg (not_not.2 hprev)]
      · rw [if_neg htip, if_neg htip]
        constructor
        · intro _
          exact ⟨hschema, hgenesis, fun _ hprevious => by cases hprevious⟩
        · intro _
          rfl
    · rw [if_neg (not_not.2 hschema), if_pos hgenesis]
      constructor
      · intro h; cases h
      · intro h; exact absurd h.genesisBlockHash hgenesis
  · rw [if_pos hschema]
    constructor
    · intro h; cases h
    · intro h; exact absurd h.schemaVersion hschema

/-- The storage after an accepted call. -/
def stored (keccak256 : Bytes → Bytes32) (self : BitcoinHeaderRelay) (st : RelayStorage)
    (call : SubmitCall) (record : HeaderRecord) : RelayStorage where
  acceptedCount := st.acceptedCount + 1
  hasTip := true
  latestProofHash := keccak256 call.proofBytes.bytes
  latestTip := record
  recentHeaders :=
    Function.update st.recentHeaders (st.acceptedCount % self.RECENT_HEADER_CAPACITY) record

/-- **The calls that are accepted, and what they do.**  As long as the count of accepted calls has
not reached its last value, a call goes through exactly if the verifier lets it and its bytes are
the packed form of a summary that may follow the tip. -/
theorem submit_ok {keccak256 : Bytes → Bytes32} {call : SubmitCall} {st' : RelayStorage}
    (hcount : st.acceptedCount.toNat + 1 < 2 ^ 256) :
    (∃ event, self.submit keccak256 st call = .ok (st', event)) ↔
      call.Verifies self ∧ ∃ summary : PublicValuesV1, call.publicValues.bytes = summary.packed ∧
        self.Acceptable st.tip (HeaderRecord.ofSummary summary) ∧
        st' = self.stored keccak256 st call (HeaderRecord.ofSummary summary) := by
  have hmod : checkedMod st.acceptedCount self.RECENT_HEADER_CAPACITY =
      .ok (st.acceptedCount % self.RECENT_HEADER_CAPACITY) :=
    if_neg (Nat.ne_of_gt self.capacity_pos)
  have hadd : checkedAdd st.acceptedCount 1 = .ok (st.acceptedCount + 1) := if_pos hcount
  unfold submit SubmitCall.Verifies
  constructor
  · rintro ⟨event, h⟩
    obtain ⟨_, hverified, h⟩ := bind_ok.1 h
    obtain ⟨summary, hsummary, h⟩ := bind_ok.1 h
    obtain ⟨_, hvalid, h⟩ := bind_ok.1 h
    rw [hmod, hadd] at h
    refine ⟨mapError_ok.1 hverified, summary, decodePublicValues_ok.1 hsummary,
      validateSummary_ok.1 hvalid, ?_⟩
    exact (Prod.mk.inj (Except.ok.inj h)).1.symm
  · rintro ⟨hverified, summary, hbytes, hvalid, hst⟩
    rw [hverified, hst, decodePublicValues_ok.2 hbytes]
    simp only [Except.mapError, bind, Except.bind]
    rw [validateSummary_ok.2 hvalid, hmod, hadd]
    exact ⟨_, rfl⟩

end BitcoinHeaderRelay

end Zkpow.Relay
