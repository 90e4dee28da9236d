import Mathlib.Tactic
import Zkpow.Relay
import Zkpow.Recursion

/-!
# The proof boundary

The verifier hands the relay the bytes the guest committed.  The guest commits the 169 bytes of
`MinimalPublicValues`; the relay reads the 228 bytes of `PublicValuesV1`, which no part of the
prover writes.

* `relay_refuses_committed` — the relay refuses everything the guest commits, whoever submits it.
-/

set_option autoImplicit false

namespace Zkpow.Relay

open ByteCodec

/-- What the relay is to make of the committed public values of a success: the same tip, read as
the same numbers, and an accepted first submission to a relay with that genesis. -/
structure RelaysCommitted (keccak256 : Bytes → Bytes32) (pv : MinimalPublicValues) : Prop where
  decodes : ∀ data : CalldataBytes, data.bytes = pv.toBytes →
    ∃ summary, decodePublicValues data = .ok summary ∧
      summary.genesisBlockHash = pv.genesisHash ∧ summary.currentBlockHash = pv.tipHash ∧
      summary.height = pv.height ∧
      summary.cumulativeChainWork.toNat = (U256.fromLeBytes pv.chainWork).toNat
  accepted : ∀ (self : BitcoinHeaderRelay) (call : SubmitCall),
    self.GENESIS_BLOCK_HASH = pv.genesisHash → call.Verifies self →
      call.publicValues.bytes = pv.toBytes →
      ∃ r, self.submit keccak256 .initial call = .ok r

theorem CalldataBytes.bytes_ofBytes (b : Bytes) : (CalldataBytes.ofBytes b).bytes = b := by
  show slice b 0 (0 + b.length) = b
  rw [Nat.zero_add]
  exact slice_full rfl

/-- The length check stops every committed byte string. -/
theorem decodePublicValues_committed {data : CalldataBytes} {pv : MinimalPublicValues}
    (h : data.bytes = pv.toBytes) :
    decodePublicValues data = .error (.invalidPublicValuesLength 169) := by
  have hlen : data.length = 169 := by
    rw [← data.length_bytes, h, MinimalPublicValues.length_toBytes]
  unfold decodePublicValues
  rw [hlen]
  exact if_pos (by decide)

theorem submit_committed {keccak256 : Bytes → Bytes32} {self : BitcoinHeaderRelay}
    {st : RelayStorage} {call : SubmitCall} {pv : MinimalPublicValues}
    (hverified : call.Verifies self) (h : call.publicValues.bytes = pv.toBytes) :
    self.submit keccak256 st call = .error (.invalidPublicValuesLength 169) := by
  unfold SubmitCall.Verifies at hverified
  unfold BitcoinHeaderRelay.submit
  rw [hverified, decodePublicValues_committed h]
  rfl

theorem not_relaysCommitted (keccak256 : Bytes → Bytes32) (pv : MinimalPublicValues) :
    ¬ RelaysCommitted keccak256 pv := by
  intro hrelays
  have hbytes := CalldataBytes.bytes_ofBytes pv.toBytes
  obtain ⟨summary, hsummary, -⟩ := hrelays.decodes _ hbytes
  rw [decodePublicValues_committed hbytes] at hsummary
  cases hsummary

/-- **The relay refuses what the guest commits.**  Whatever the success, its bytes do not decode,
and every submission of them reverts on their length although the proof verifies. -/
theorem relay_refuses_committed (keccak256 : Bytes → Bytes32) (claim : Claim)
    (continuationDigest : Bytes32) (verifierKey : VerifierKeyDigest) :
    ¬ RelaysCommitted keccak256 (.success claim continuationDigest verifierKey) ∧
    (∀ data : CalldataBytes,
      data.bytes = (MinimalPublicValues.success claim continuationDigest verifierKey).toBytes →
      decodePublicValues data = .error (.invalidPublicValuesLength 169)) ∧
    (∀ (self : BitcoinHeaderRelay) (st : RelayStorage) (call : SubmitCall), call.Verifies self →
      call.publicValues.bytes =
        (MinimalPublicValues.success claim continuationDigest verifierKey).toBytes →
      self.submit keccak256 st call = .error (.invalidPublicValuesLength 169)) :=
  ⟨not_relaysCommitted keccak256 _, fun _ => decodePublicValues_committed,
    fun _ _ _ => submit_committed⟩

/-- The first success of the recursion's example, submitted to a relay of its own genesis. -/
theorem not_relaysCommitted_example :
    exampleFirst.committed = examplePublicValues.toBytes ∧
      ¬ RelaysCommitted (fun _ => Vector.replicate 32 0) examplePublicValues :=
  ⟨exampleFirst_committed, not_relaysCommitted _ _⟩

end Zkpow.Relay
