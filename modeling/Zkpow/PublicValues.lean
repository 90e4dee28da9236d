import Mathlib.Tactic
import Zkpow.Wire

/-!
# Public values

`MinimalPublicValues`, the 169 bytes a run commits, and `HeaderChainPublicValues`, their typed
form (`crates/core/src/lib.rs`).

* `MinimalPublicValues.toBytes_inj` — the committed bytes determine every field;
* `success_toBytes_ne_failure_toBytes` — no failure has the bytes of a success;
* `decodesExactly_iff` — at which bytes the typed decoder inverts the two constructors.
-/

set_option autoImplicit false

namespace Zkpow

open ByteCodec ExceptFold

structure MinimalPublicValues where
  genesisHash : BlockHash
  tipHash : BlockHash
  chainWork : Bytes32
  height : UInt32
  returnCode : UInt8
  failureHeight : UInt32
  continuationDigest : Bytes32
  verifierKey : VerifierKeyDigest
  deriving DecidableEq, Repr

/-- `MINIMAL_PV_SIZE`. -/
def MINIMAL_PV_SIZE : Nat := 169

namespace MinimalPublicValues

/-- Build success public values from a public claim and continuation digest. -/
def success (claim : Claim) (continuationDigest : Bytes32) (verifierKey : VerifierKeyDigest) :
    MinimalPublicValues where
  genesisHash := claim.genesisHash
  tipHash := claim.tipHash
  chainWork := claim.chainWork.toLeBytes
  height := claim.height
  returnCode := 0
  failureHeight := 0
  continuationDigest := continuationDigest
  verifierKey := verifierKey

/-- Build failure public values from a public claim, error, and continuation digest. -/
def failure (claim : Claim) (errorCode : ValidationErrorCode) (failureHeight : UInt32)
    (continuationDigest : Bytes32) (verifierKey : VerifierKeyDigest) : MinimalPublicValues where
  genesisHash := claim.genesisHash
  tipHash := claim.tipHash
  chainWork := claim.chainWork.toLeBytes
  height := claim.height
  returnCode := errorCode.asByte
  failureHeight := failureHeight
  continuationDigest := continuationDigest
  verifierKey := verifierKey

/-- Serialize to exactly 169 bytes. -/
def toBytes (pv : MinimalPublicValues) : Bytes :=
  let out := List.replicate MINIMAL_PV_SIZE 0
  let out := put out 0 32 pv.genesisHash.toList
  let out := put out 32 64 pv.tipHash.toList
  let out := put out 64 96 pv.chainWork.toList
  let out := put out 96 100 (Codec.u32.enc pv.height)
  let out := put out 100 101 (Codec.u8.enc pv.returnCode)
  let out := put out 101 105 (Codec.u32.enc pv.failureHeight)
  let out := put out 105 137 pv.continuationDigest.toList
  put out 137 169 (VerifierKeyDigest.toBytes pv.verifierKey)

/-- Deserialize from exactly 169 bytes. -/
def parse (bytes : Bytes) : Except PublicValuesParseError MinimalPublicValues :=
  if bytes.length ≠ MINIMAL_PV_SIZE then .error (.invalidLength bytes.length)
  else .ok {
    genesisHash := (Codec.array 32).dec (slice bytes 0 32)
    tipHash := (Codec.array 32).dec (slice bytes 32 64)
    chainWork := (Codec.array 32).dec (slice bytes 64 96)
    height := Codec.u32.dec (slice bytes 96 100)
    returnCode := bytes.getD 100 0
    failureHeight := Codec.u32.dec (slice bytes 101 105)
    continuationDigest := (Codec.array 32).dec (slice bytes 105 137)
    verifierKey := VerifierKeyDigest.fromBytes (slice bytes 137 169) }

def codec : Codec MinimalPublicValues :=
  ((Codec.array 32).prod ((Codec.array 32).prod ((Codec.array 32).prod (Codec.u32.prod
    (Codec.u8.prod (Codec.u32.prod ((Codec.array 32).prod VerifierKeyDigest.codec))))))).iso
    (fun (g, t, w, h, r, f, d, k) => ⟨g, t, w, h, r, f, d, k⟩)
    (fun p => (p.genesisHash, p.tipHash, p.chainWork, p.height, p.returnCode, p.failureHeight,
      p.continuationDigest, p.verifierKey))
    (fun _ => rfl) (fun _ => rfl)

@[simp] theorem width_codec : codec.width = 169 := rfl

theorem toBytes_eq (pv : MinimalPublicValues) : pv.toBytes = codec.enc pv := by
  have hvk : (VerifierKeyDigest.codec.enc pv.verifierKey).length = 32 :=
    VerifierKeyDigest.codec.enc_length _
  unfold toBytes
  simp only [VerifierKeyDigest.toBytes_eq]
  rw [put_start (by simp), put_next (by simp) (by simp), put_next (by simp) (by simp),
    put_next (by simp) (by simp), put_next (by simp) (by simp), put_next (by simp) (by simp),
    put_next (by simp) (by simp), put_next (by simp) (by simp [hvk])]
  simp [MINIMAL_PV_SIZE, codec, Codec.iso, Codec.prod, Codec.array, hvk]

theorem length_toBytes (pv : MinimalPublicValues) : pv.toBytes.length = 169 := by
  rw [toBytes_eq, Codec.enc_length, width_codec]

/-- **The committed bytes determine every field.** -/
theorem toBytes_inj {pv pv' : MinimalPublicValues} (h : pv.toBytes = pv'.toBytes) : pv = pv' := by
  rw [toBytes_eq, toBytes_eq] at h
  exact codec.enc_inj h

theorem headD_slice {b : Bytes} {i : Nat} (hi : i < b.length) :
    (slice b i (i + 1)).headD 0 = b.getD i 0 := by
  rw [slice, List.take_succ_eq_append_getElem hi, List.drop_append_of_le_length (by simp; omega),
    List.drop_eq_nil_of_le (by simp), List.nil_append, List.getD_eq_getElem?_getD,
    List.getElem?_eq_getElem hi]
  rfl

/-- Parsing inverts serializing, and accepts nothing else. -/
theorem parse_ok {bytes : Bytes} {pv : MinimalPublicValues} :
    parse bytes = .ok pv ↔ bytes = pv.toBytes := by
  have hdec (hlen : bytes.length = 169) : codec.dec bytes = ⟨
      (Codec.array 32).dec (slice bytes 0 32), (Codec.array 32).dec (slice bytes 32 64),
      (Codec.array 32).dec (slice bytes 64 96), Codec.u32.dec (slice bytes 96 100),
      bytes.getD 100 0, Codec.u32.dec (slice bytes 101 105),
      (Codec.array 32).dec (slice bytes 105 137),
      VerifierKeyDigest.fromBytes (slice bytes 137 169)⟩ := by
    rw [← headD_slice (show 100 < bytes.length by omega)]
    simp [codec, Codec.iso, Codec.prod, slice_slice, VerifierKeyDigest.fromBytes_eq, Codec.u8]
  rw [toBytes_eq]
  unfold parse
  by_cases h : bytes.length = MINIMAL_PV_SIZE
  · rw [if_neg (not_not.2 h), ← hdec h]
    rw [Except.ok.injEq]
    constructor
    · intro h'
      rw [← h', codec.enc_dec bytes h]
    · intro h'
      rw [h', codec.dec_enc]
  · rw [if_pos h]
    constructor
    · intro h'; cases h'
    · rintro rfl
      exact absurd (codec.enc_length pv) h

/-- No failure has the bytes of a success. -/
theorem success_toBytes_ne_failure_toBytes {c c' : Claim} {d d' : Bytes32}
    {k k' : VerifierKeyDigest} {e : ValidationErrorCode} {f : UInt32} :
    (success c d k).toBytes ≠ (failure c' e f d' k').toBytes := by
  intro h
  have hcode := congrArg returnCode (toBytes_inj h)
  exact e.asByte_ne_zero hcode.symm

/-- Equal success values have equal parts. -/
theorem success_inj {c c' : Claim} {d d' : Bytes32} {k k' : VerifierKeyDigest}
    (h : (success c d k).toBytes = (success c' d' k').toBytes) : c = c' ∧ d = d' ∧ k = k' := by
  have hpv := toBytes_inj h
  simp only [success, MinimalPublicValues.mk.injEq] at hpv
  obtain ⟨hg, ht, hw, hh, _, _, hd, hk⟩ := hpv
  have hwork : c.chainWork = c'.chainWork := by
    rw [← U256.fromLeBytes_toLeBytes c.chainWork, hw, U256.fromLeBytes_toLeBytes]
  cases c
  cases c'
  simp only at hg ht hwork hh
  subst hg ht hwork hh
  exact ⟨rfl, hd, hk⟩

end MinimalPublicValues

/-! ## Typed public values -/

/-- Failure payload in committed public values. -/
structure ProofFailure where
  errorCode : ValidationErrorCode
  failureHeight : UInt32
  deriving DecidableEq, Repr

/-- Typed public values committed by the prover. -/
inductive HeaderChainPublicValues where
  | success (claim : Claim) (continuationDigest : Bytes32) (verifierKey : VerifierKeyDigest)
  | failure (failure : ProofFailure) (lastValidClaim : Claim) (continuationDigest : Bytes32)
      (verifierKey : VerifierKeyDigest)
  deriving DecidableEq, Repr

namespace HeaderChainPublicValues

/-- Parse committed public values from the minimal 169-byte format. -/
def parse (bytes : Bytes) : Except PublicValuesParseError HeaderChainPublicValues := do
  let pv ← MinimalPublicValues.parse bytes
  let claim : Claim :=
    ⟨pv.genesisHash, pv.tipHash, U256.fromLeBytes pv.chainWork, pv.height⟩
  if pv.returnCode = 0 then
    return .success claim pv.continuationDigest pv.verifierKey
  else
    let errorCode ← ValidationErrorCode.tryFrom pv.returnCode
    return .failure ⟨errorCode, pv.failureHeight⟩ claim pv.continuationDigest pv.verifierKey

/-- Borrow the public claim regardless of success or failure. -/
def claim : HeaderChainPublicValues → Claim
  | .success claim _ _ => claim
  | .failure _ lastValidClaim _ _ => lastValidClaim

def continuationDigest : HeaderChainPublicValues → Bytes32
  | .success _ digest _ => digest
  | .failure _ _ digest _ => digest

def verifierKey : HeaderChainPublicValues → VerifierKeyDigest
  | .success _ _ key => key
  | .failure _ _ _ key => key

/-- Parsing a success checks the return code only: its failure height may be anything. -/
theorem parse_eq_success_iff {b : Bytes} {c : Claim} {d : Bytes32} {k : VerifierKeyDigest} :
    parse b = .ok (.success c d k) ↔
      ∃ f, b = { MinimalPublicValues.success c d k with failureHeight := f }.toBytes := by
  unfold parse
  constructor
  · intro h
    obtain ⟨pv, hpv, h⟩ := bind_ok.1 h
    refine ⟨pv.failureHeight, ?_⟩
    rw [MinimalPublicValues.parse_ok.1 hpv]
    split at h
    · rename_i hcode
      cases h
      simp only [MinimalPublicValues.success, U256.toLeBytes_fromLeBytes, ← hcode]
    · obtain ⟨_, -, h⟩ := bind_ok.1 h
      cases h
  · rintro ⟨f, hb⟩
    refine bind_ok.2 ⟨_, MinimalPublicValues.parse_ok.2 hb, ?_⟩
    simp only [MinimalPublicValues.success, if_true, U256.fromLeBytes_toLeBytes]
    rfl

/-- Parsing a failure inverts its constructor. -/
theorem parse_eq_failure_iff {b : Bytes} {failure : ProofFailure} {c : Claim} {d : Bytes32}
    {k : VerifierKeyDigest} :
    parse b = .ok (.failure failure c d k) ↔ b = (MinimalPublicValues.failure c failure.errorCode
      failure.failureHeight d k).toBytes := by
  unfold parse
  constructor
  · intro h
    obtain ⟨pv, hpv, h⟩ := bind_ok.1 h
    rw [MinimalPublicValues.parse_ok.1 hpv]
    split at h
    · cases h
    · obtain ⟨errorCode, hcode, h⟩ := bind_ok.1 h
      cases h
      simp only [MinimalPublicValues.failure, U256.toLeBytes_fromLeBytes,
        ← ValidationErrorCode.tryFrom_ok_iff.1 hcode]
  · intro hb
    have hcode := ValidationErrorCode.tryFrom_ok_iff.2
      (rfl : failure.errorCode.asByte = failure.errorCode.asByte)
    refine bind_ok.2 ⟨_, MinimalPublicValues.parse_ok.2 hb, ?_⟩
    simp only [MinimalPublicValues.failure, failure.errorCode.asByte_ne_zero, if_false, hcode,
      U256.fromLeBytes_toLeBytes]
    rfl

theorem parse_success (c : Claim) (d : Bytes32) (k : VerifierKeyDigest) :
    parse (MinimalPublicValues.success c d k).toBytes = .ok (.success c d k) :=
  parse_eq_success_iff.2 ⟨0, rfl⟩

theorem parse_failure (c : Claim) (e : ValidationErrorCode) (f : UInt32) (d : Bytes32)
    (k : VerifierKeyDigest) :
    parse (MinimalPublicValues.failure c e f d k).toBytes = .ok (.failure ⟨e, f⟩ c d k) :=
  parse_eq_failure_iff.2 rfl

/-! ### What the typed decoder accepts -/

/-- The typed decoder is the inverse image of the two constructors at `b`. -/
structure DecodesExactly (b : Bytes) : Prop where
  success : ∀ c d k, parse b = .ok (.success c d k) ↔
    b = (MinimalPublicValues.success c d k).toBytes
  failure : ∀ failure c d k, parse b = .ok (.failure failure c d k) ↔
    b = (MinimalPublicValues.failure c failure.errorCode failure.failureHeight d k).toBytes

/-- Bytes with the return code of a success and a failure height other than zero. -/
def SuccessWithFailureHeight (b : Bytes) : Prop :=
  b.length = MINIMAL_PV_SIZE ∧ b.getD 100 0 = 0 ∧ Codec.u32.dec (slice b 101 105) ≠ 0

theorem successWithFailureHeight_toBytes {pv : MinimalPublicValues} :
    SuccessWithFailureHeight pv.toBytes ↔ pv.returnCode = 0 ∧ pv.failureHeight ≠ 0 := by
  have hlen : pv.toBytes.length = MINIMAL_PV_SIZE := pv.length_toBytes
  have hparse := MinimalPublicValues.parse_ok.2 (rfl : pv.toBytes = pv.toBytes)
  unfold MinimalPublicValues.parse at hparse
  rw [if_neg (not_not.2 hlen), Except.ok.injEq] at hparse
  have hcode := congrArg MinimalPublicValues.returnCode hparse
  have hheight := congrArg MinimalPublicValues.failureHeight hparse
  simp only at hcode hheight
  rw [SuccessWithFailureHeight, hcode, hheight]
  exact and_iff_right hlen

/-- At such bytes the decoder returns a success that has other bytes. -/
theorem not_decodesExactly {b : Bytes} (h : SuccessWithFailureHeight b) : ¬ DecodesExactly b := by
  obtain ⟨pv, hb⟩ : ∃ pv : MinimalPublicValues, b = pv.toBytes :=
    ⟨_, MinimalPublicValues.parse_ok.1 (if_neg (not_not.2 h.1))⟩
  rw [hb] at h ⊢
  obtain ⟨hcode, hheight⟩ := successWithFailureHeight_toBytes.1 h
  intro hexact
  have hparse : parse pv.toBytes = .ok (.success ⟨pv.genesisHash, pv.tipHash,
      U256.fromLeBytes pv.chainWork, pv.height⟩ pv.continuationDigest pv.verifierKey) := by
    refine parse_eq_success_iff.2 ⟨pv.failureHeight, ?_⟩
    simp only [MinimalPublicValues.success, U256.toLeBytes_fromLeBytes, ← hcode]
  have hbytes := MinimalPublicValues.toBytes_inj ((hexact.success _ _ _).1 hparse)
  exact hheight (congrArg MinimalPublicValues.failureHeight hbytes)

theorem decodesExactly {b : Bytes} (h : ¬ SuccessWithFailureHeight b) : DecodesExactly b where
  success c d k := by
    rw [parse_eq_success_iff]
    constructor
    · rintro ⟨f, hb⟩
      rw [hb] at h ⊢
      have hf : f = 0 := by
        by_contra hne
        exact h (successWithFailureHeight_toBytes.2 ⟨rfl, hne⟩)
      rw [hf]
      rfl
    · intro hb
      exact ⟨0, hb⟩
  failure _ _ _ _ := parse_eq_failure_iff

/-- **The typed decoder is exact where it checks the failure height**: at all bytes but those of a
success with a failure height, which it takes for the success without one.  Among the others no
two decode to the same value. -/
theorem decodesExactly_iff (b : Bytes) :
    (DecodesExactly b ↔ ¬ SuccessWithFailureHeight b) ∧
    ∀ b' v, ¬ SuccessWithFailureHeight b → ¬ SuccessWithFailureHeight b' →
      parse b = .ok v → parse b' = .ok v → b = b' := by
  refine ⟨⟨fun hexact h => not_decodesExactly h hexact, decodesExactly⟩, ?_⟩
  intro b' v hb hb' hv hv'
  cases v with
  | success c d k =>
    rw [((decodesExactly hb).success c d k).1 hv, ((decodesExactly hb').success c d k).1 hv']
  | failure failure c d k =>
    rw [((decodesExactly hb).failure failure c d k).1 hv,
      ((decodesExactly hb').failure failure c d k).1 hv']

/-- A success with failure height 1 decodes as the success with failure height 0. -/
theorem parse_success_failureHeight_one :
    let pv := MinimalPublicValues.success ⟨Vector.replicate 32 0, Vector.replicate 32 0,
      ⟨#v[0, 0, 0, 0]⟩, 0⟩ (Vector.replicate 32 0) (Vector.replicate 8 0)
    SuccessWithFailureHeight { pv with failureHeight := 1 }.toBytes ∧
      ¬ DecodesExactly { pv with failureHeight := 1 }.toBytes ∧
      { pv with failureHeight := 1 }.toBytes ≠ pv.toBytes ∧
      parse { pv with failureHeight := 1 }.toBytes = parse pv.toBytes := by
  intro pv
  have h : SuccessWithFailureHeight { pv with failureHeight := 1 }.toBytes :=
    successWithFailureHeight_toBytes.2 ⟨rfl, by decide⟩
  refine ⟨h, not_decodesExactly h, fun heq => ?_, ?_⟩
  · have hheight := congrArg MinimalPublicValues.failureHeight
      (MinimalPublicValues.toBytes_inj heq)
    exact absurd hheight (by decide)
  · rw [parse_success]
    exact parse_eq_success_iff.2 ⟨1, rfl⟩

end HeaderChainPublicValues

end Zkpow
