import Mathlib.Tactic
import Zkpow.PublicValues

/-!
# Guest inputs

The proof-carrying state and the header batch the guest reads (`crates/core/src/input.rs`).
Header and hint payloads are reinterpreted in place, so a payload is a byte string at an
address: `Buffer`.

* `ProofCarryingState.parse_ok` — parsing inverts serializing;
* `wire_formats_exact` — the five fixed-width formats are bijections;
* `parseNewHeaders_ok`, `parseMedianHints_ok` — accepted payloads are serialized lists, hints as
  many as headers.
-/

set_option autoImplicit false

namespace Zkpow

open ByteCodec ExceptFold

/-! ## The proof-carrying state -/

/-- SP1 proof authentication data for the prior execution. -/
structure Proof where
  publicValuesDigest : Bytes32
  exitCode : UInt8
  pad : Vector UInt8 3
  deriving DecidableEq, Repr

/-- `Proof::default`. -/
def Proof.default : Proof where
  publicValuesDigest := Vector.replicate 32 0
  exitCode := 0
  pad := Vector.replicate 3 0

/-- Memory layout of `Proof`, 36 bytes. -/
def Proof.codec : Codec Proof :=
  ((Codec.array 32).prod (Codec.u8.prod (Codec.array 3))).iso (fun (d, e, p) => ⟨d, e, p⟩)
    (fun p => (p.publicValuesDigest, p.exitCode, p.pad)) (fun _ => rfl) (fun _ => rfl)

@[simp] theorem width_Proof : Proof.codec.width = 36 := rfl

/-- `PROOF_SIZE`. -/
def PROOF_SIZE : Nat := 36

/-- Wire size of the verifier key. -/
def VK_WIRE_SIZE : Nat := 32

/-- `InputError`. -/
inductive InputError where
  | parse (e : ParseError)
  deriving DecidableEq, Repr

def Proof.parse (bytes : Bytes) : Except InputError Proof :=
  (copyFromBytes Proof.codec bytes).mapError .parse

def Proof.toBytes (p : Proof) : Bytes := Proof.codec.enc p

/-- The complete output of the prior execution: its claim, key and proof. -/
structure ProofCarryingState where
  claim : Claim
  verifierKey : VerifierKeyDigest
  proof : Proof
  deriving DecidableEq, Repr

namespace ProofCarryingState

/-- `split_pcs_wire`. -/
def splitPcsWire (bytes : Bytes) : Except InputError (Bytes × Bytes × Bytes) := do
  (checkExactLen bytes (CLAIM_SIZE + VK_WIRE_SIZE + PROOF_SIZE)).mapError .parse
  return (bytes.take CLAIM_SIZE, slice bytes CLAIM_SIZE (CLAIM_SIZE + VK_WIRE_SIZE),
    bytes.drop (CLAIM_SIZE + VK_WIRE_SIZE))

/-- Parse and validate from the host/guest wire format. -/
def parse (bytes : Bytes) : Except InputError ProofCarryingState := do
  let (claimBytes, vkBytes, proofBytes) ← splitPcsWire bytes
  let claim ← (Claim.parse claimBytes).mapError .parse
  let verifierKey := VerifierKeyDigest.fromBytes vkBytes
  let proof ← Proof.parse proofBytes
  return ⟨claim, verifierKey, proof⟩

/-- Serialize to the host/guest wire format. -/
def toBytes (pcs : ProofCarryingState) : Bytes :=
  pcs.claim.toBytes ++ VerifierKeyDigest.toBytes pcs.verifierKey ++ pcs.proof.toBytes

/-- Its three parts, one after the other, 168 bytes. -/
def codec : Codec ProofCarryingState :=
  (Claim.codec.prod (VerifierKeyDigest.codec.prod Proof.codec)).iso (fun (c, k, p) => ⟨c, k, p⟩)
    (fun pcs => (pcs.claim, pcs.verifierKey, pcs.proof)) (fun _ => rfl) (fun _ => rfl)

@[simp] theorem width_codec : codec.width = 168 := rfl

theorem toBytes_eq (pcs : ProofCarryingState) : pcs.toBytes = codec.enc pcs := by
  rw [toBytes, Claim.toBytes_eq, VerifierKeyDigest.toBytes_eq, Proof.toBytes, List.append_assoc]
  rfl

theorem length_toBytes (pcs : ProofCarryingState) : pcs.toBytes.length = 168 := by
  rw [toBytes_eq, Codec.enc_length, width_codec]

theorem splitPcsWire_ok {bytes : Bytes} (h : bytes.length = 168) :
    splitPcsWire bytes = .ok (slice bytes 0 100, slice bytes 100 132, slice bytes 132 168) := by
  have hdrop : bytes.drop 132 = slice bytes 132 168 := by
    rw [slice, List.take_of_length_le (Nat.le_of_eq h)]
  unfold splitPcsWire checkExactLen
  rw [if_neg (show ¬ bytes.length ≠ CLAIM_SIZE + VK_WIRE_SIZE + PROOF_SIZE from not_not.2 h),
    ← hdrop]
  rfl

theorem splitPcsWire_error {bytes : Bytes} (h : bytes.length ≠ 168) :
    splitPcsWire bytes = .error (.parse (.invalidLength 168 bytes.length)) := by
  unfold splitPcsWire checkExactLen
  rw [if_pos (show bytes.length ≠ CLAIM_SIZE + VK_WIRE_SIZE + PROOF_SIZE from h)]
  rfl

/-- Parsing inverts serializing, and accepts nothing else. -/
theorem parse_ok {bytes : Bytes} {pcs : ProofCarryingState} :
    parse bytes = .ok pcs ↔ bytes = pcs.toBytes := by
  rw [toBytes_eq]
  unfold parse
  by_cases h : bytes.length = 168
  · have hclaim : Claim.parse (slice bytes 0 100) = .ok (Claim.codec.dec (slice bytes 0 100)) := by
      rw [Claim.parse_eq, copyFromBytes_dec]
      rw [length_slice _ _ _ (by omega)]
      rfl
    have hproof : Proof.parse (slice bytes 132 168) =
        .ok (Proof.codec.dec (slice bytes 132 168)) := by
      rw [Proof.parse, copyFromBytes_dec]
      · rfl
      · rw [length_slice _ _ _ (by omega)]
        rfl
    have hdec : codec.dec bytes = ⟨Claim.codec.dec (slice bytes 0 100),
        VerifierKeyDigest.fromBytes (slice bytes 100 132),
        Proof.codec.dec (slice bytes 132 168)⟩ := by
      simp [codec, Codec.iso, Codec.prod, slice_slice, VerifierKeyDigest.fromBytes_eq]
    simp only [splitPcsWire_ok h, hclaim, hproof, bind, Except.bind, pure, Except.pure,
      Except.mapError, ← hdec, Except.ok.injEq]
    constructor
    · rintro rfl
      exact (codec.enc_dec bytes h).symm
    · rintro rfl
      exact codec.dec_enc pcs
  · rw [splitPcsWire_error h]
    constructor
    · intro hparse
      cases hparse
    · rintro rfl
      exact absurd (codec.enc_length pcs) h

theorem parse_toBytes (pcs : ProofCarryingState) : parse pcs.toBytes = .ok pcs := parse_ok.2 rfl

end ProofCarryingState

/-! ## The fixed-width formats -/

theorem Claim.exactFormat : ExactFormat 100 Claim.toBytes Claim.parse :=
  Claim.codec.exactFormat Claim.toBytes_eq fun {b a} => by rw [Claim.parse_eq, copyFromBytes_ok]

theorem ContinuationData.exactFormat :
    ExactFormat 116 ContinuationData.toBytes ContinuationData.parse :=
  ContinuationData.codec.exactFormat ContinuationData.toBytes_eq fun {b a} => by
    rw [ContinuationData.parse_eq, copyFromBytes_ok]

theorem MinimalPublicValues.exactFormat :
    ExactFormat 169 MinimalPublicValues.toBytes MinimalPublicValues.parse :=
  MinimalPublicValues.codec.exactFormat MinimalPublicValues.toBytes_eq fun {b a} => by
    rw [MinimalPublicValues.parse_ok, MinimalPublicValues.toBytes_eq]

/-- Claim and continuation data together leave out the tip header only. -/
theorem State.eq_iff_claim_continuation {s t : State} :
    s.publicClaim = t.publicClaim ∧ ContinuationData.fromState s = ContinuationData.fromState t ↔
      { s with header := t.header } = t := by
  constructor
  · rintro ⟨hclaim, hcontinuation⟩
    rw [State.eq_of_claim_continuation hclaim hcontinuation]
  · intro h
    rw [← h]
    exact ⟨rfl, rfl⟩

/-- **The wire formats are exact bijections**: each parser accepts the strings of its length and
no other, and inverts its serializer.  The claim and the continuation bytes of a state determine
every field but its header. -/
theorem wire_formats_exact :
    ExactFormat 296 State.toBytes State.parse ∧
    ExactFormat 100 Claim.toBytes Claim.parse ∧
    ExactFormat 116 ContinuationData.toBytes ContinuationData.parse ∧
    ExactFormat 169 MinimalPublicValues.toBytes MinimalPublicValues.parse ∧
    ExactFormat 168 ProofCarryingState.toBytes ProofCarryingState.parse ∧
    ∀ s t : State, s.continuationBytes = t.continuationBytes ∧
        s.publicClaim.toBytes = t.publicClaim.toBytes ↔ { s with header := t.header } = t := by
  refine ⟨State.codec.exactFormat (fun _ => rfl) copyFromBytes_ok, Claim.exactFormat,
    ContinuationData.exactFormat, MinimalPublicValues.exactFormat,
    ProofCarryingState.codec.exactFormat ProofCarryingState.toBytes_eq fun {b a} => by
      rw [ProofCarryingState.parse_ok, ProofCarryingState.toBytes_eq], fun s t => ?_⟩
  rw [← State.eq_iff_claim_continuation, and_comm]
  exact and_congr Claim.exactFormat.injective.eq_iff ContinuationData.exactFormat.injective.eq_iff

/-! ## Header and hint payloads -/

/-- A byte string in memory. -/
structure Buffer where
  address : Nat
  bytes : Bytes
  deriving Repr

def Buffer.Aligned (b : Buffer) (n : Nat) : Prop := b.address % n = 0

instance (b : Buffer) (n : Nat) : Decidable (b.Aligned n) := by
  unfold Buffer.Aligned; exact inferInstance

/-- `usize::div_ceil`. -/
def divCeil (a b : Nat) : Nat := if a % b = 0 then a / b else a / b + 1

/-- `slice_from_bytes`: a whole-slice reinterpretation, for element type of the given alignment. -/
def sliceFromBytes {α : Type} (c : Codec α) (align : Nat) (b : Buffer) :
    Except ParseError (List α) :=
  if b.bytes.length % c.width ≠ 0 then
    .error (.invalidLength (divCeil b.bytes.length c.width * c.width) b.bytes.length)
  else if ¬ b.Aligned align then .error (.misaligned align)
  else .ok (decodeList c b.bytes)

/-- `NewHeaderHintError` and `MedianTimePastHintError`. -/
inductive HintError where
  | payloadLengthInvalid (expected actual : Nat)
  | parse (e : ParseError)
  deriving DecidableEq, Repr

/-- Serialize new headers. -/
def serializeNewHeaders (headers : List NewHeader) : Bytes := headers.flatMap NewHeader.toBytes

/-- Parse new headers as a zero-copy slice reference. -/
def parseNewHeaders (b : Buffer) : Except HintError (List NewHeader) :=
  if b.bytes.length % 44 ≠ 0 then
    .error (.payloadLengthInvalid (divCeil b.bytes.length 44 * 44) b.bytes.length)
  else (sliceFromBytes NewHeader.codec 4 b).mapError .parse

/-- Serialize median hints. -/
def serializeMedianHints (medians : List BlockTimestamp) : Bytes := medians.flatMap Codec.u32.enc

/-- Parse median hints as a zero-copy slice reference. -/
def parseMedianHints (b : Buffer) (expectedCount : Nat) :
    Except HintError (List BlockTimestamp) :=
  if b.bytes.length ≠ expectedCount * 4 then
    .error (.payloadLengthInvalid (expectedCount * 4) b.bytes.length)
  else (sliceFromBytes Codec.u32 4 b).mapError .parse

theorem sliceFromBytes_ok {α : Type} {c : Codec α} {align : Nat} (hw : 0 < c.width) {b : Buffer}
    {l : List α} :
    sliceFromBytes c align b = .ok l ↔ b.Aligned align ∧ b.bytes = encodeList c l := by
  unfold sliceFromBytes
  by_cases hlen : b.bytes.length % c.width = 0
  · rw [if_neg (not_not.2 hlen)]
    by_cases hal : b.Aligned align
    · rw [if_neg (not_not.2 hal)]
      constructor
      · intro h
        cases h
        exact ⟨hal, (encodeList_decodeList c (Nat.dvd_of_mod_eq_zero hlen)).symm⟩
      · rintro ⟨_, h⟩
        rw [h, decodeList_encodeList c hw]
    · rw [if_pos hal]
      constructor
      · intro h; cases h
      · rintro ⟨h, _⟩; exact absurd h hal
  · rw [if_pos hlen]
    constructor
    · intro h; cases h
    · rintro ⟨_, h⟩
      rw [h, length_encodeList] at hlen
      exact absurd (Nat.mul_mod_left _ _) hlen

/-- **An accepted header payload is the serialized list.** -/
theorem parseNewHeaders_ok {b : Buffer} {headers : List NewHeader} :
    parseNewHeaders b = .ok headers ↔ b.Aligned 4 ∧ b.bytes = serializeNewHeaders headers := by
  unfold parseNewHeaders
  split
  · rename_i hlen
    constructor
    · intro h; cases h
    · rintro ⟨_, h⟩
      have hl := length_encodeList NewHeader.codec headers
      rw [show encodeList NewHeader.codec headers = serializeNewHeaders headers from rfl, ← h,
        width_NewHeader] at hl
      rw [hl] at hlen
      exact absurd (Nat.mul_mod_left _ _) hlen
  · rw [mapError_ok]
    exact sliceFromBytes_ok (by decide)

/-- **An accepted hint payload is the serialized list, of the expected length.** -/
theorem parseMedianHints_ok {b : Buffer} {n : Nat} {hints : List BlockTimestamp} :
    parseMedianHints b n = .ok hints ↔
      b.Aligned 4 ∧ hints.length = n ∧ b.bytes = serializeMedianHints hints := by
  have hl := length_encodeList Codec.u32 hints
  rw [show encodeList Codec.u32 hints = serializeMedianHints hints from rfl, width_u32] at hl
  have hslice : sliceFromBytes Codec.u32 4 b = .ok hints ↔
      b.Aligned 4 ∧ b.bytes = serializeMedianHints hints := sliceFromBytes_ok (by decide)
  unfold parseMedianHints
  split
  · rename_i hlen
    constructor
    · intro h; cases h
    · rintro ⟨_, hn, h⟩
      rw [h, hl, hn] at hlen
      exact absurd rfl hlen
  · rename_i hlen
    rw [mapError_ok, hslice]
    constructor
    · rintro ⟨hal, h⟩
      rw [h, hl] at hlen
      exact ⟨hal, by omega, h⟩
    · rintro ⟨hal, _, h⟩
      exact ⟨hal, h⟩

/-- `parse_median_hints` with the expected length computed in `usize`. -/
def parseMedianHintsUsize (b : Buffer) (expectedCount : UInt64) :
    Except HintError (List BlockTimestamp) :=
  let expectedLen := expectedCount * 4
  if b.bytes.length ≠ expectedLen.toNat then
    .error (.payloadLengthInvalid expectedLen.toNat b.bytes.length)
  else (sliceFromBytes Codec.u32 4 b).mapError .parse

/-- Below `2^62` the product does not wrap. -/
theorem parseMedianHintsUsize_eq (b : Buffer) {n : UInt64} (hn : n.toNat < 2 ^ 62) :
    parseMedianHintsUsize b n = parseMedianHints b n.toNat := by
  have hprod : (n * 4).toNat = n.toNat * 4 := by
    rw [UInt64.toNat_mul]
    exact Nat.mod_eq_of_lt (by show n.toNat * 4 < _; omega)
  unfold parseMedianHintsUsize parseMedianHints
  simp only [hprod]

theorem length_serializeNewHeaders (headers : List NewHeader) :
    (serializeNewHeaders headers).length = headers.length * 44 :=
  length_encodeList NewHeader.codec headers

/-- An aligned payload of whole headers is accepted. -/
theorem exists_parseNewHeaders {b : Buffer} (halign : b.Aligned 4) :
    (∃ headers, parseNewHeaders b = .ok headers) ↔ 44 ∣ b.bytes.length := by
  constructor
  · rintro ⟨headers, h⟩
    rw [(parseNewHeaders_ok.1 h).2, length_serializeNewHeaders]
    exact Nat.dvd_mul_left 44 headers.length
  · intro h
    exact ⟨_, parseNewHeaders_ok.2 ⟨halign, (encodeList_decodeList NewHeader.codec h).symm⟩⟩

/-- Serialized hints are accepted for their own number only. -/
theorem parseMedianHints_serialize {address n : Nat} {medians hints : List BlockTimestamp}
    (halign : address % 4 = 0) :
    parseMedianHints ⟨address, serializeMedianHints medians⟩ n = .ok hints ↔
      n = medians.length ∧ hints = medians := by
  rw [parseMedianHints_ok]
  constructor
  · rintro ⟨_, hlen, hbytes⟩
    have hsame : hints = medians := by
      rw [← decodeList_encodeList Codec.u32 (by decide) hints,
        ← decodeList_encodeList Codec.u32 (by decide) medians]
      exact congrArg (decodeList Codec.u32) hbytes.symm
    exact ⟨by rw [← hlen, hsame], hsame⟩
  · rintro ⟨rfl, rfl⟩
    exact ⟨halign, rfl, rfl⟩

end Zkpow
