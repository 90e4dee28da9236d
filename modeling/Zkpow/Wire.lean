import Mathlib.Tactic
import Zkpow.State

/-!
# Wire formats

The serialized forms of the core types (`crates/core/src/lib.rs`, `state.rs`).  `Header`,
`NewHeader` and `State` are `repr(C)` structs copied to and from memory: their fields lie one
after the other, in declaration order, with no padding (every offset is a multiple of its field's
alignment).  `Claim`, `ContinuationData` and `VerifierKeyDigest` are written field by field at
explicit offsets.

Each format is a `Codec`; `toBytes_eq` lemmas say that the code's writer is its encoder, and
`parse_eq` lemmas that the code's reader is its decoder behind a length check.
-/

set_option autoImplicit false

namespace Zkpow

open ByteCodec

/-! ## Memory copies -/

/-- `check_exact_len`. -/
def checkExactLen (bytes : Bytes) (expected : Nat) : Except ParseError Unit :=
  if bytes.length ≠ expected then .error (.invalidLength expected bytes.length) else .ok ()

/-- `copy_from_bytes`. -/
def copyFromBytes {α : Type} (c : Codec α) (bytes : Bytes) : Except ParseError α := do
  checkExactLen bytes c.width
  return c.dec bytes

theorem copyFromBytes_ok {α : Type} {c : Codec α} {bytes : Bytes} {a : α} :
    copyFromBytes c bytes = .ok a ↔ bytes = c.enc a := by
  unfold copyFromBytes checkExactLen
  split
  · rename_i h
    constructor
    · intro h'; cases h'
    · rintro rfl; exact absurd (c.enc_length a) h
  · rename_i h
    constructor
    · intro h'
      cases h'
      exact (c.enc_dec bytes (not_not.1 h)).symm
    · rintro rfl
      show Except.ok (c.dec (c.enc a)) = _
      rw [c.dec_enc]

theorem copyFromBytes_dec {α : Type} {c : Codec α} {bytes : Bytes}
    (h : bytes.length = c.width) : copyFromBytes c bytes = .ok (c.dec bytes) :=
  copyFromBytes_ok.2 (c.enc_dec bytes h).symm

/-- Memory layout of `Header`, 80 bytes. -/
def Header.codec : Codec Header :=
  (Codec.u32.prod ((Codec.array 32).prod ((Codec.array 32).prod
    (Codec.u32.prod (Codec.u32.prod Codec.u32))))).iso
    (fun (v, p, m, t, c, n) => ⟨v, p, m, t, c, n⟩)
    (fun h => (h.version, h.prevBlockhash, h.merkleRoot, h.timestamp, h.compactTarget, h.nonce))
    (fun _ => rfl) (fun _ => rfl)

/-- Serialize to exactly 80 bytes. -/
def Header.toBytes (h : Header) : Bytes := Header.codec.enc h

/-- Memory layout of `NewHeader`, 44 bytes. -/
def NewHeader.codec : Codec NewHeader :=
  (Codec.u32.prod ((Codec.array 32).prod (Codec.u32.prod Codec.u32))).iso
    (fun (v, m, t, n) => ⟨v, m, t, n⟩) (fun h => (h.version, h.merkleRoot, h.timestamp, h.nonce))
    (fun _ => rfl) (fun _ => rfl)

def NewHeader.toBytes (h : NewHeader) : Bytes := NewHeader.codec.enc h

/-- Memory layout of `State`, 296 bytes. -/
def State.codec : Codec State :=
  (Header.codec.prod ((Codec.array 32).prod ((Codec.array 32).prod (Codec.u32.prod
    (Codec.u32.prod (U256.codec.prod (U256.codec.prod (U256.codec.prod (Codec.u32.prod
      (Codec.vector Codec.u32 WINDOW_SIZE)))))))))).iso
    (fun (hd, b, g, c, h, w, cw, ct, e, ts) => ⟨hd, b, g, c, h, w, cw, ct, e, ts⟩)
    (fun s => (s.header, s.blockHash, s.genesisHash, s.currentNbits, s.height, s.chainWork,
      s.currentWork, s.currentTarget, s.epochStartTimestamp, s.timestamps))
    (fun _ => rfl) (fun _ => rfl)

/-- Serialize to exactly 296 bytes. -/
def State.toBytes (s : State) : Bytes := State.codec.enc s

/-- Deserialize from exactly 296 bytes. -/
def State.parse (bytes : Bytes) : Except ParseError State := copyFromBytes State.codec bytes

@[simp] theorem width_U256 : U256.codec.width = 32 := rfl
@[simp] theorem width_Header : Header.codec.width = 80 := rfl
@[simp] theorem width_NewHeader : NewHeader.codec.width = 44 := rfl
@[simp] theorem width_State : State.codec.width = 296 := rfl

/-! ## Verifier keys -/

/-- Digest of a program verifier key, `[u32; 8]`. -/
abbrev VerifierKeyDigest := Vector UInt32 8

/-- `out[i * 4..(i + 1) * 4].copy_from_slice(&word.to_le_bytes())` for each word. -/
def VerifierKeyDigest.toBytes (vk : VerifierKeyDigest) : Bytes :=
  vk.toList.zipIdx.foldl (fun out p => put out (p.2 * 4) ((p.2 + 1) * 4) (Codec.u32.enc p.1))
    (List.replicate 32 0)

/-- `u32::from_le_bytes(bytes[i * 4..(i + 1) * 4])` for each word. -/
def VerifierKeyDigest.fromBytes (bytes : Bytes) : VerifierKeyDigest :=
  Vector.ofFn fun i : Fin 8 => Codec.u32.dec (slice bytes (i * 4) ((i + 1) * 4))

def VerifierKeyDigest.codec : Codec VerifierKeyDigest := Codec.vector Codec.u32 8

@[simp] theorem width_VerifierKeyDigest : VerifierKeyDigest.codec.width = 32 := rfl

theorem VerifierKeyDigest.toBytes_eq (vk : VerifierKeyDigest) :
    VerifierKeyDigest.toBytes vk = VerifierKeyDigest.codec.enc vk := by
  have h := foldl_put Codec.u32 0 vk.toList 0 [] (List.replicate 32 0) rfl
  simp only [Nat.zero_add, List.nil_append, width_u32, Vector.length_toList,
    List.drop_replicate, Nat.reduceMul, Nat.reduceSub, List.replicate_zero, List.append_nil] at h
  exact h

theorem VerifierKeyDigest.fromBytes_eq (bytes : Bytes) :
    VerifierKeyDigest.fromBytes bytes = VerifierKeyDigest.codec.dec bytes := rfl

/-! ## Claims -/

/-- `CLAIM_SIZE`. -/
def CLAIM_SIZE : Nat := 100

def Claim.toBytes (c : Claim) : Bytes :=
  let out := List.replicate CLAIM_SIZE 0
  let out := put out 0 32 c.genesisHash.toList
  let out := put out 32 64 c.tipHash.toList
  let out := put out 64 96 c.chainWork.toLeBytes.toList
  put out 96 100 (Codec.u32.enc c.height)

def Claim.parse (bytes : Bytes) : Except ParseError Claim := do
  checkExactLen bytes CLAIM_SIZE
  return {
    genesisHash := (Codec.array 32).dec (slice bytes 0 32)
    tipHash := (Codec.array 32).dec (slice bytes 32 64)
    chainWork := U256.fromLeBytes ((Codec.array 32).dec (slice bytes 64 96))
    height := Codec.u32.dec (slice bytes 96 100) }

def Claim.codec : Codec Claim :=
  ((Codec.array 32).prod ((Codec.array 32).prod (U256.codec.prod Codec.u32))).iso
    (fun (g, t, w, h) => ⟨g, t, w, h⟩) (fun c => (c.genesisHash, c.tipHash, c.chainWork, c.height))
    (fun _ => rfl) (fun _ => rfl)

@[simp] theorem width_Claim : Claim.codec.width = 100 := rfl

theorem Claim.toBytes_eq (c : Claim) : c.toBytes = Claim.codec.enc c := by
  unfold Claim.toBytes
  simp only
  rw [put_start (by simp), put_next (by simp) (by simp), put_next (by simp) (by simp),
    put_next (by simp) (by simp)]
  simp [CLAIM_SIZE, Claim.codec, Codec.iso, Codec.prod, Codec.array, U256.codec]

theorem Claim.parse_eq (bytes : Bytes) : Claim.parse bytes = copyFromBytes Claim.codec bytes := by
  have hdec : Claim.codec.dec bytes = ⟨(Codec.array 32).dec (slice bytes 0 32),
      (Codec.array 32).dec (slice bytes 32 64),
      U256.fromLeBytes ((Codec.array 32).dec (slice bytes 64 96)),
      Codec.u32.dec (slice bytes 96 100)⟩ := by
    simp [Claim.codec, Codec.iso, Codec.prod, slice_slice, U256.codec]
  unfold Claim.parse copyFromBytes
  rw [hdec]
  rfl

/-! ## Continuation data -/

/-- `CONTINUATION_DATA_SIZE`. -/
def CONTINUATION_DATA_SIZE : Nat := 116

def ContinuationData.toBytes (d : ContinuationData) : Bytes :=
  let out := List.replicate CONTINUATION_DATA_SIZE 0
  let out := put out 0 4 (Codec.u32.enc d.currentNbits)
  let out := put out 4 36 d.currentWork.toLeBytes.toList
  let out := put out 36 68 d.currentTarget.toLeBytes.toList
  let out := put out 68 72 (Codec.u32.enc d.epochStartTimestamp)
  d.timestamps.toList.zipIdx.foldl
    (fun out p => put out (72 + p.2 * 4) (72 + (p.2 + 1) * 4) (Codec.u32.enc p.1)) out

def ContinuationData.parse (bytes : Bytes) : Except ParseError ContinuationData := do
  checkExactLen bytes CONTINUATION_DATA_SIZE
  return {
    currentNbits := Codec.u32.dec (slice bytes 0 4)
    currentWork := U256.fromLeBytes ((Codec.array 32).dec (slice bytes 4 36))
    currentTarget := U256.fromLeBytes ((Codec.array 32).dec (slice bytes 36 68))
    epochStartTimestamp := Codec.u32.dec (slice bytes 68 72)
    timestamps := Vector.ofFn fun i : Fin WINDOW_SIZE =>
      Codec.u32.dec (slice bytes (72 + i * 4) (72 + (i + 1) * 4)) }

def ContinuationData.codec : Codec ContinuationData :=
  (Codec.u32.prod (U256.codec.prod (U256.codec.prod (Codec.u32.prod
    (Codec.vector Codec.u32 WINDOW_SIZE))))).iso
    (fun (c, cw, ct, e, ts) => ⟨c, cw, ct, e, ts⟩)
    (fun d => (d.currentNbits, d.currentWork, d.currentTarget, d.epochStartTimestamp,
      d.timestamps))
    (fun _ => rfl) (fun _ => rfl)

@[simp] theorem width_ContinuationData : ContinuationData.codec.width = 116 := rfl

theorem ContinuationData.toBytes_eq (d : ContinuationData) :
    d.toBytes = ContinuationData.codec.enc d := by
  unfold ContinuationData.toBytes
  simp only
  rw [put_start (by simp), put_next (by simp) (by simp), put_next (by simp) (by simp),
    put_next (by simp) (by simp)]
  have h := foldl_put Codec.u32 72 d.timestamps.toList 0
    (Codec.u32.enc d.currentNbits ++ d.currentWork.toLeBytes.toList ++
      d.currentTarget.toLeBytes.toList ++ Codec.u32.enc d.epochStartTimestamp)
    (List.replicate 44 0) (by simp)
  rw [Vector.length_toList, List.drop_of_length_le (by simp)] at h
  simp only [width_u32, List.append_nil] at h
  simp only [CONTINUATION_DATA_SIZE, List.drop_replicate, length_u32_enc, Vector.length_toList,
    Nat.reduceSub]
  rw [h]
  simp only [ContinuationData.codec, Codec.iso, Codec.prod, U256.codec, Codec.vector,
    List.append_assoc]

theorem ContinuationData.parse_eq (bytes : Bytes) :
    ContinuationData.parse bytes = copyFromBytes ContinuationData.codec bytes := by
  have hts : ∀ i : Fin WINDOW_SIZE, slice (slice bytes 72 116) (i * 4) ((i + 1) * 4) =
      slice bytes (72 + i * 4) (72 + (i + 1) * 4) := fun i => by
    have hi : i.val < 11 := i.isLt
    exact slice_slice (by omega)
  have hdec : ContinuationData.codec.dec bytes = ⟨Codec.u32.dec (slice bytes 0 4),
      U256.fromLeBytes ((Codec.array 32).dec (slice bytes 4 36)),
      U256.fromLeBytes ((Codec.array 32).dec (slice bytes 36 68)),
      Codec.u32.dec (slice bytes 68 72),
      Vector.ofFn fun i : Fin WINDOW_SIZE =>
        Codec.u32.dec (slice bytes (72 + i * 4) (72 + (i + 1) * 4))⟩ := by
    simp only [← hts]
    simp [ContinuationData.codec, Codec.iso, Codec.prod, slice_slice, U256.codec, Codec.vector]
  unfold ContinuationData.parse copyFromBytes
  rw [hdec]
  rfl

/-- Serialize the continuation data of a state. -/
def State.continuationBytes (s : State) : Bytes := (ContinuationData.fromState s).toBytes

theorem length_continuationBytes (s : State) : s.continuationBytes.length = 116 := by
  rw [State.continuationBytes, ContinuationData.toBytes_eq, Codec.enc_length,
    width_ContinuationData]

/-- The continuation bytes determine the continuation data. -/
theorem continuationBytes_inj {s t : State} (h : s.continuationBytes = t.continuationBytes) :
    ContinuationData.fromState s = ContinuationData.fromState t := by
  rw [State.continuationBytes, State.continuationBytes, ContinuationData.toBytes_eq,
    ContinuationData.toBytes_eq] at h
  exact ContinuationData.codec.enc_inj h

end Zkpow
