import Zkpow.Batch
import Zkpow.Guest

/-!
# What two runs must share

A run reads more than it is given proof of.  `SameButHeader` relates states that differ in the tip
header at most: accepting headers preserves it and cannot tell such states apart.  `SameTip` asks
for less, and is preserved when both states accept a header.  So

* `committed_eq_of_digest` — above height zero the digest of the prior public values and the
  header bytes determine what is committed;
* `claim_eq_of_anchor` — at height zero the trusted anchor and the header bytes do.
-/

set_option autoImplicit false

namespace Zkpow

open ByteCodec ExceptFold

/-! ## States at one tip -/

/-- States at one tip and one difficulty.  Of the timestamps only the tip's matters, and only to a
retarget. -/
structure SameTip (s t : State) : Prop where
  blockHash : s.blockHash = t.blockHash
  genesisHash : s.genesisHash = t.genesisHash
  height : s.height = t.height
  chainWork : s.chainWork = t.chainWork
  difficulty : s.difficulty = t.difficulty
  epochStartTimestamp : s.epochStartTimestamp = t.epochStartTimestamp
  tipTimestamp : (s.height + 1) % EPOCH_LENGTH = 0 → s.tipTimestamp = t.tipTimestamp

section Agree

variable {s t : State} {hashHeader : Header → BlockHash}

theorem SameTip.publicClaim (h : SameTip s t) : s.publicClaim = t.publicClaim := by
  unfold State.publicClaim
  rw [h.genesisHash, h.blockHash, h.chainWork, h.height]

theorem SameTip.nextDifficulty (h : SameTip s t) : s.nextDifficulty = t.nextDifficulty := by
  have htarget : s.currentTarget = t.currentTarget := congrArg Difficulty.target h.difficulty
  unfold State.nextDifficulty
  rw [← h.height, h.difficulty]
  split
  · rename_i hboundary
    unfold State.retargeted
    simp only [htarget, h.epochStartTimestamp, h.tipTimestamp hboundary]
  · rfl

theorem SameTip.candidate (h : SameTip s t) (nh : NewHeader) : s.candidate nh = t.candidate nh := by
  rw [State.candidate, State.candidate, h.blockHash, h.nextDifficulty]

theorem tipTimestamp_extend (s : State) (nh : NewHeader) :
    (s.extend hashHeader nh).tipTimestamp = nh.timestamp := by
  show (s.timestamps.set (timestampSlot (s.height + 1)) nh.timestamp)[timestampSlot (s.height + 1)]
    = nh.timestamp
  exact Vector.getElem_set_self _

/-- Once both have the same header on top, its timestamp is the tip's of both. -/
theorem SameTip.extend (h : SameTip s t) (nh : NewHeader) :
    SameTip (s.extend hashHeader nh) (t.extend hashHeader nh) where
  blockHash := by
    show hashHeader (s.candidate nh) = hashHeader (t.candidate nh)
    rw [h.candidate]
  genesisHash := h.genesisHash
  height := by
    show s.height + 1 = t.height + 1
    rw [h.height]
  chainWork := by
    show s.chainWork + s.nextDifficulty.work = t.chainWork + t.nextDifficulty.work
    rw [h.chainWork, h.nextDifficulty]
  difficulty := h.nextDifficulty
  epochStartTimestamp := by
    show (if (s.height + 1) % EPOCH_LENGTH = 0 then (s.candidate nh).timestamp
      else s.epochStartTimestamp) = if (t.height + 1) % EPOCH_LENGTH = 0 then
      (t.candidate nh).timestamp else t.epochStartTimestamp
    rw [h.height, h.candidate, h.epochStartTimestamp]
  tipTimestamp _ := by rw [tipTimestamp_extend, tipTimestamp_extend]

/-- Headers that both states accept keep them at one tip, whichever others they would refuse. -/
theorem SameTip.run (h : SameTip s t) {headers : List NewHeader} {s' t' : State}
    (hs : headers.foldlM (acceptHeader hashHeader) s = .ok s')
    (ht : headers.foldlM (acceptHeader hashHeader) t = .ok t') : SameTip s' t' := by
  refine foldlM_ok_rel (fun s t nh s' t' h hs ht => ?_) h hs ht
  obtain ⟨_, _, rfl⟩ := acceptHeader_ok.1 hs
  obtain ⟨_, _, rfl⟩ := acceptHeader_ok.1 ht
  exact h.extend nh

/-! ## States that cannot be told apart -/

/-- States that differ in the tip header at most. -/
structure SameButHeader (s t : State) : Prop extends SameTip s t where
  timestamps : s.timestamps = t.timestamps

/-- Only the header is left open by the claim and the continuation data. -/
theorem SameButHeader.of_continuation (hclaim : s.publicClaim = t.publicClaim)
    (hcont : ContinuationData.fromState s = ContinuationData.fromState t) :
    SameButHeader s t := by
  rw [State.eq_of_claim_continuation hclaim hcont]
  exact ⟨⟨rfl, rfl, rfl, rfl, rfl, rfl, fun _ => rfl⟩, rfl⟩

theorem SameButHeader.continuation (h : SameButHeader s t) :
    ContinuationData.fromState s = ContinuationData.fromState t := by
  have hd := h.difficulty
  simp only [State.difficulty, Difficulty.mk.injEq] at hd
  unfold ContinuationData.fromState
  rw [hd.1, hd.2.1, hd.2.2, h.epochStartTimestamp, h.timestamps]

theorem SameButHeader.refl (s : State) : SameButHeader s s :=
  ⟨⟨rfl, rfl, rfl, rfl, rfl, rfl, fun _ => rfl⟩, rfl⟩

theorem SameButHeader.withHeader (s : State) (header : Header) :
    SameButHeader { s with header := header } s :=
  ⟨⟨rfl, rfl, rfl, rfl, rfl, rfl, fun _ => rfl⟩, rfl⟩

theorem SameButHeader.symm (h : SameButHeader s t) : SameButHeader t s :=
  .of_continuation h.publicClaim.symm h.continuation.symm

theorem SameButHeader.trans {u : State} (h : SameButHeader s t) (h' : SameButHeader t u) :
    SameButHeader s u :=
  .of_continuation (h.publicClaim.trans h'.publicClaim) (h.continuation.trans h'.continuation)

theorem SameButHeader.medianTimePast (h : SameButHeader s t) :
    s.medianTimePast = t.medianTimePast := by
  have hcount : s.timestampCount = t.timestampCount := by
    rw [State.timestampCount, State.timestampCount, h.height]
  have htracked : s.trackedTimestamps = t.trackedTimestamps := by
    rw [State.trackedTimestamps, State.trackedTimestamps, h.timestamps, hcount]
  rw [State.medianTimePast, State.medianTimePast, htracked, hcount]

theorem SameButHeader.extend (h : SameButHeader s t) (nh : NewHeader) :
    SameButHeader (s.extend hashHeader nh) (t.extend hashHeader nh) where
  toSameTip := h.toSameTip.extend nh
  timestamps := by
    show s.timestamps.set (timestampSlot (s.height + 1)) nh.timestamp =
      t.timestamps.set (timestampSlot (t.height + 1)) nh.timestamp
    simp only [h.timestamps, h.height]

/-- Failures that report related states. -/
structure FailuresAgree (f g : ApplyFailure) : Prop where
  state : SameButHeader f.lastValidState g.lastValidState
  errorCode : f.errorCode = g.errorCode
  failureHeight : f.failureHeight = g.failureHeight

/-- **One header cannot tell related states apart.** -/
theorem acceptHeader_agree (hashHeader : Header → BlockHash) (h : SameButHeader s t)
    (nh : NewHeader) : Agree SameButHeader FailuresAgree
      (acceptHeader hashHeader s nh) (acceptHeader hashHeader t nh) := by
  unfold acceptHeader
  rw [← h.medianTimePast, ← h.candidate, ← h.nextDifficulty, ← h.height]
  split
  · exact .error ⟨h, rfl, rfl⟩
  split
  · exact .ok (h.extend nh)
  · exact .error ⟨h, rfl, rfl⟩

theorem foldlM_agree (hashHeader : Header → BlockHash) (h : SameButHeader s t)
    (headers : List NewHeader) : Agree SameButHeader FailuresAgree
      (headers.foldlM (acceptHeader hashHeader) s) (headers.foldlM (acceptHeader hashHeader) t) :=
  foldlM_rel (A := (· = ·)) (fun _ _ a b hR hab => by
    rw [← hab]
    exact acceptHeader_agree hashHeader hR a) (List.forall₂_refl headers) h

end Agree

/-! ## Runs of the guest -/

section Runs

variable {sys : Sha256Syscalls}

/-- The outcome of a run is that of accepting its headers one at a time. -/
theorem GuestRun.result_eq (run : GuestRun sys) :
    run.result = outcome (run.headers.foldlM (acceptHeader (hashHeader sys)) run.state) :=
  (applyHeaders_ok_iff.1 run.applied).2

/-- Header bytes determine the headers. -/
theorem headers_eq_of_bytes {r₁ r₂ : GuestRun sys}
    (h : r₁.input.headerHints.bytes = r₂.input.headerHints.bytes) : r₁.headers = r₂.headers := by
  have h₁ := (parseNewHeaders_ok.1 r₁.headers_parsed).2
  have h₂ := (parseNewHeaders_ok.1 r₂.headers_parsed).2
  have henc : encodeList NewHeader.codec r₁.headers = encodeList NewHeader.codec r₂.headers :=
    h₁.symm.trans (h.trans h₂)
  rw [← decodeList_encodeList NewHeader.codec (by decide) r₁.headers, henc,
    decodeList_encodeList NewHeader.codec (by decide)]

/-- Related outcomes are committed as the same public values. -/
theorem committedPublicValues_eq {vk : VerifierKeyDigest} {x y : Except ApplyFailure State}
    (h : Agree SameButHeader FailuresAgree x y) :
    committedPublicValues sys vk (outcome x) = committedPublicValues sys vk (outcome y) := by
  have hdigest : ∀ {s t : State}, SameButHeader s t →
      computeContinuationDigest sys s = computeContinuationDigest sys t := fun hst => by
    unfold computeContinuationDigest State.continuationBytes
    rw [hst.continuation]
  cases h with
  | ok hst =>
    simp only [outcome, committedPublicValues]
    rw [hst.publicClaim, hdigest hst]
  | error hfg =>
    simp only [outcome, committedPublicValues]
    rw [hfg.state.publicClaim, hfg.errorCode, hfg.failureHeight, hdigest hfg.state]

/-- Runs from states that agree on everything but the header commit the same values. -/
theorem committed_eq_of_sameButHeader {r₁ r₂ : GuestRun sys}
    (hvk : r₁.pcs.verifierKey = r₂.pcs.verifierKey) (hheaders : r₁.headers = r₂.headers)
    (hstate : SameButHeader r₁.state r₂.state) : r₁.committed = r₂.committed := by
  unfold GuestRun.committed
  rw [r₁.result_eq, r₂.result_eq, hvk, hheaders, committedPublicValues_eq]
  exact foldlM_agree _ hstate _

/-- The digest of the prior public values binds key, claim and continuation data. -/
theorem prior_bound (hsys : sys.Fips) {r₁ r₂ : GuestRun sys} (h₁ : 0 < r₁.pcs.claim.height)
    (h₂ : 0 < r₂.pcs.claim.height)
    (hcont : Set.InjOn Sha256.hash {r₁.state.continuationBytes, r₂.state.continuationBytes})
    (hpv : Set.InjOn Sha256.hash {r₁.priorPublicValues.toBytes, r₂.priorPublicValues.toBytes})
    (hdigest : r₁.pcs.proof.publicValuesDigest = r₂.pcs.proof.publicValuesDigest) :
    r₁.pcs.verifierKey = r₂.pcs.verifierKey ∧ r₁.pcs.claim = r₂.pcs.claim ∧
      ContinuationData.fromState r₁.state = ContinuationData.fromState r₂.state := by
  have hhash : publicValuesDigest sys r₁.priorPublicValues =
      publicValuesDigest sys r₂.priorPublicValues :=
    ((r₁.prior h₁).digest.trans hdigest).trans (r₂.prior h₂).digest.symm
  rw [publicValuesDigest_eq hsys, publicValuesDigest_eq hsys] at hhash
  have hbytes : r₁.priorPublicValues.toBytes = r₂.priorPublicValues.toBytes :=
    hpv (by simp) (by simp) hhash
  obtain ⟨hclaim, hcd, hvk⟩ := MinimalPublicValues.success_inj hbytes
  rw [computeContinuationDigest_eq hsys, computeContinuationDigest_eq hsys] at hcd
  exact ⟨hvk, hclaim, continuationBytes_inj (hcont (by simp) (by simp) hcd)⟩

/-- **Unauthenticated witness data cannot influence the committed bytes.**  Above height zero the
prior digest binds the key, the claim and every continuation field, so two runs with the same
digest and header bytes commit the same bytes, whatever else they were given. -/
theorem committed_eq_of_digest (hsys : sys.Fips) (r₁ r₂ : GuestRun sys)
    (h₁ : 0 < r₁.pcs.claim.height) (h₂ : 0 < r₂.pcs.claim.height)
    (hcont : Set.InjOn Sha256.hash {r₁.state.continuationBytes, r₂.state.continuationBytes})
    (hpv : Set.InjOn Sha256.hash {r₁.priorPublicValues.toBytes, r₂.priorPublicValues.toBytes})
    (hdigest : r₁.pcs.proof.publicValuesDigest = r₂.pcs.proof.publicValuesDigest)
    (hheaders : r₁.input.headerHints.bytes = r₂.input.headerHints.bytes) :
    r₁.committed = r₂.committed ∧ r₁.pcs.verifierKey = r₂.pcs.verifierKey ∧
      r₁.pcs.claim = r₂.pcs.claim ∧
      ContinuationData.fromState r₁.state = ContinuationData.fromState r₂.state := by
  obtain ⟨hvk, hclaim, hcd⟩ := prior_bound hsys h₁ h₂ hcont hpv hdigest
  have hpublic : r₁.state.publicClaim = r₂.state.publicClaim := by
    rw [r₁.claim_eq, r₂.claim_eq, hclaim]
  exact ⟨committed_eq_of_sameButHeader hvk (headers_eq_of_bytes hheaders)
    (.of_continuation hpublic hcd), hvk, hclaim, hcd⟩

/-! ## Runs on well-formed inputs -/

/-- The proof whose digest is that of the state's own success public values. -/
def matchingProof (sys : Sha256Syscalls) (state : State) (verifierKey : VerifierKeyDigest)
    (pad : Vector UInt8 3) : Proof :=
  ⟨publicValuesDigest sys (priorPublicValues sys verifierKey state.publicClaim state), 0, pad⟩

/-- The run on serialized inputs, with a proof the guest accepts. -/
def GuestRun.onInputs (sys : Sha256Syscalls) (verify : Sp1Verifier) (state : State)
    (verifierKey : VerifierKeyDigest) (proof : Proof) (headers : List NewHeader)
    (hints : List BlockTimestamp) (result : State × Except ApplyFailure Unit)
    (hprior : 0 < state.height →
      PriorProof sys verify ⟨state.publicClaim, verifierKey, proof⟩ state)
    (happly : applyHeaders (hashHeader sys) state headers hints = .ok result) : GuestRun sys where
  verifySp1Proof := verify
  input := ⟨(ProofCarryingState.mk state.publicClaim verifierKey proof).toBytes, state.toBytes,
    ⟨0, serializeNewHeaders headers⟩, ⟨0, serializeMedianHints hints⟩⟩
  pcs := ⟨state.publicClaim, verifierKey, proof⟩
  state := state
  headers := headers
  medianHints := hints
  result := result
  pcs_parsed := ProofCarryingState.parse_toBytes _
  state_parsed := copyFromBytes_ok.2 rfl
  claim_eq := rfl
  headers_parsed := parseNewHeaders_ok.2 ⟨rfl, rfl⟩
  hints_parsed :=
    parseMedianHints_ok.2 ⟨rfl, (applyHeaders_ok_iff.1 happly).1.length_eq.symm, rfl⟩
  prior := hprior
  applied := happly

/-- The run on a state and a batch, with a proof of the state's own success public values. -/
def GuestRun.matching (sys : Sha256Syscalls) (state : State) (verifierKey : VerifierKeyDigest)
    (pad : Vector UInt8 3) (headers : List NewHeader) (hints : List BlockTimestamp)
    (result : State × Except ApplyFailure Unit)
    (happly : applyHeaders (hashHeader sys) state headers hints = .ok result) : GuestRun sys :=
  let proof := matchingProof sys state verifierKey pad
  .onInputs sys (fun vk d => vk == verifierKey && d == proof.publicValuesDigest) state verifierKey
    proof headers hints result (fun _ => ⟨rfl, rfl, by simp⟩) happly

/-- The run on a state and an empty batch. -/
def GuestRun.idle (sys : Sha256Syscalls) (state : State) (verifierKey : VerifierKeyDigest)
    (pad : Vector UInt8 3) : GuestRun sys :=
  .matching sys state verifierKey pad [] [] (state, .ok ()) (applyHeaders_nil state)

section Idle

variable (state : State) (verifierKey : VerifierKeyDigest) (pad : Vector UInt8 3)

@[simp] theorem idle_claim :
    (GuestRun.idle sys state verifierKey pad).pcs.claim = state.publicClaim := rfl

@[simp] theorem idle_verifierKey :
    (GuestRun.idle sys state verifierKey pad).pcs.verifierKey = verifierKey := rfl

@[simp] theorem idle_state : (GuestRun.idle sys state verifierKey pad).state = state := rfl

@[simp] theorem idle_headerHints :
    (GuestRun.idle sys state verifierKey pad).input.headerHints = ⟨0, []⟩ := rfl

theorem idle_verify {vk : VerifierKeyDigest} {d : Bytes32}
    (h : (GuestRun.idle sys state verifierKey pad).verifySp1Proof vk d = true) :
    vk = verifierKey ∧ d = publicValuesDigest sys
      (GuestRun.idle sys state verifierKey pad).priorPublicValues := by
  unfold GuestRun.idle GuestRun.matching GuestRun.onInputs at h
  simp only [Bool.and_eq_true, beq_iff_eq] at h
  exact h

end Idle

/-! ## An anchor any hash extends -/

/-- The target every hash meets. -/
def maxTarget : Target := ⟨Vector.replicate 4 0xFFFFFFFFFFFFFFFF⟩

/-- An anchor whose blocks any hash extends. -/
def easyAnchor : State := { State.default with currentTarget := maxTarget }

theorem checkProofOfWork_maxTarget (hash : BlockHash) : checkProofOfWork hash maxTarget = true := by
  have hmax : maxTarget.toNat = 2 ^ 256 - 1 := by decide +kernel
  rw [checkProofOfWork_iff, hmax]
  have hlt := ofLE_lt hash.toList
  rw [Vector.length_toList] at hlt
  exact Nat.le_sub_one_of_lt hlt

/-- Inside an epoch with that target a later timestamp is all that is asked for. -/
theorem acceptHeader_maxTarget {hashHeader : Header → BlockHash} {s : State} {nh : NewHeader}
    (htarget : s.currentTarget = maxTarget) (hinside : (s.height + 1) % EPOCH_LENGTH ≠ 0)
    (htime : s.medianTimePast < nh.timestamp) :
    acceptHeader hashHeader s nh = .ok (s.extend hashHeader nh) := by
  have hnext : s.nextDifficulty.target = maxTarget := by
    rw [State.nextDifficulty, if_neg hinside]
    exact htarget
  exact acceptHeader_ok.2 ⟨htime, by rw [hnext]; exact checkProofOfWork_maxTarget _, rfl⟩

/-- One accepted header is a batch of one. -/
theorem applyHeaders_singleton {hashHeader : Header → BlockHash} {s t : State} {nh : NewHeader}
    {hint : BlockTimestamp} (hhint : hint = s.medianTimePast)
    (h : acceptHeader hashHeader s nh = .ok t) :
    applyHeaders hashHeader s [nh] [hint] = .ok (t, .ok ()) :=
  applyHeaders_ok.2 ⟨hintsCorrect_cons.2 ⟨hhint, rfl, fun t _ => hintsCorrect_nil t⟩,
    foldlM_cons_ok.2 ⟨t, h, rfl⟩⟩

def easyTip : State := easyAnchor.extend (hashHeader .reference) (headerAt 1)

def exampleKey : VerifierKeyDigest := Vector.replicate 8 0

theorem applyHeaders_easyAnchor :
    applyHeaders (hashHeader .reference) easyAnchor [headerAt 1] [0] = .ok (easyTip, .ok ()) :=
  applyHeaders_singleton (by decide +kernel)
    (acceptHeader_maxTarget rfl (by decide) (by decide +kernel))

/-- The same block with another nonce in its unauthenticated header. -/
def otherTip : State := { easyTip with header := { easyTip.header with nonce := 7 } }

/-- A second header is accepted on either, for the same hint. -/
theorem applyHeaders_easyTip :
    applyHeaders (hashHeader .reference) easyTip [headerAt 2] [1] =
        .ok (easyTip.extend (hashHeader .reference) (headerAt 2), .ok ()) ∧
      applyHeaders (hashHeader .reference) otherTip [headerAt 2] [1] =
        .ok (otherTip.extend (hashHeader .reference) (headerAt 2), .ok ()) :=
  ⟨applyHeaders_singleton (by decide +kernel)
      (acceptHeader_maxTarget rfl (by decide) (by decide +kernel)),
    applyHeaders_singleton (by decide +kernel)
      (acceptHeader_maxTarget rfl (by decide) (by decide +kernel))⟩

/-- Two runs above height zero that accept a header, from states with different headers and with
proofs with different padding. -/
theorem committed_eq_of_digest_easyTip :
    let r₁ := GuestRun.matching .reference easyTip exampleKey #v[0, 0, 0] [headerAt 2] [1] _
      applyHeaders_easyTip.1
    let r₂ := GuestRun.matching .reference otherTip exampleKey #v[1, 2, 3] [headerAt 2] [1] _
      applyHeaders_easyTip.2
    r₁.input.stateWitness ≠ r₂.input.stateWitness ∧ r₁.input.pcs ≠ r₂.input.pcs ∧
      r₁.result.2 = .ok () ∧ r₁.result.1.height = 2 ∧ r₁.committed = r₂.committed := by
  intro r₁ r₂
  have hsame : SameButHeader otherTip easyTip := .withHeader easyTip _
  have hcont : otherTip.continuationBytes = easyTip.continuationBytes :=
    congrArg ContinuationData.toBytes hsame.continuation
  have hpv : priorPublicValues .reference exampleKey otherTip.publicClaim otherTip =
      priorPublicValues .reference exampleKey easyTip.publicClaim easyTip := by
    rw [priorPublicValues, priorPublicValues, computeContinuationDigest, computeContinuationDigest,
      hcont, hsame.publicClaim]
  refine ⟨fun h => ?_, fun h => ?_, rfl, rfl, ?_⟩
  · have hstate : easyTip = otherTip := State.codec.enc_inj h
    exact absurd (congrArg (fun s : State => s.header.nonce) hstate) (by decide +kernel)
  · have hpcs := Except.ok.inj ((r₁.pcs_parsed.symm.trans (congrArg _ h)).trans r₂.pcs_parsed)
    exact absurd (congrArg (fun pcs => pcs.proof.pad) hpcs) (by decide)
  · have hheaders : r₁.input.headerHints = ⟨0, serializeNewHeaders [headerAt 2]⟩ := rfl
    have hheaders' : r₂.input.headerHints = ⟨0, serializeNewHeaders [headerAt 2]⟩ := rfl
    refine (committed_eq_of_digest Sha256Syscalls.reference_fips r₁ r₂ (by decide) (by decide)
      ?_ ?_ (congrArg (publicValuesDigest .reference) hpv.symm) (by rw [hheaders, hheaders'])).1
    · show Set.InjOn _ {easyTip.continuationBytes, otherTip.continuationBytes}
      rw [hcont, Set.pair_eq_singleton]
      exact Set.injOn_singleton _ _
    · show Set.InjOn _ {(priorPublicValues .reference exampleKey easyTip.publicClaim
        easyTip).toBytes, (priorPublicValues .reference exampleKey otherTip.publicClaim
        otherTip).toBytes}
      rw [hpv, Set.pair_eq_singleton]
      exact Set.injOn_singleton _ _

end Runs

/-! ## Anchors -/

section Anchors

variable {sys : Sha256Syscalls}

/-- Committing a success is the successful end of `apply_headers`. -/
theorem committed_success {vk : VerifierKeyDigest} {c : Claim} {d : Bytes32}
    {k : VerifierKeyDigest} : ∀ {r : State × Except ApplyFailure Unit},
    HeaderChainPublicValues.parse (committedPublicValues sys vk r).toBytes =
        .ok (.success c d k) ↔
      r.2 = .ok () ∧ c = r.1.publicClaim ∧ d = computeContinuationDigest sys r.1 ∧ k = vk
  | (s, .ok ()) => by
    rw [committedPublicValues, HeaderChainPublicValues.parse_success, Except.ok.injEq,
      HeaderChainPublicValues.success.injEq]
    constructor
    · rintro ⟨rfl, rfl, rfl⟩
      exact ⟨rfl, rfl, rfl, rfl⟩
    · rintro ⟨_, rfl, rfl, rfl⟩
      exact ⟨rfl, rfl, rfl⟩
  | (s, .error f) => by
    rw [committedPublicValues, HeaderChainPublicValues.parse_failure]
    constructor
    · intro h; cases h
    · rintro ⟨h, _⟩; cases h

theorem idle_committed_success (state : State) (vk : VerifierKeyDigest) (pad : Vector UInt8 3) :
    HeaderChainPublicValues.parse (GuestRun.idle sys state vk pad).committed =
      .ok (.success state.publicClaim (computeContinuationDigest sys state) vk) :=
  committed_success.2 ⟨rfl, rfl, rfl, rfl⟩

/-- A run whose headers are all accepted commits the state it ends in. -/
theorem GuestRun.parse_committed (run : GuestRun sys) (hok : run.result.2 = .ok ()) :
    HeaderChainPublicValues.parse run.committed = .ok (.success run.result.1.publicClaim
      (computeContinuationDigest sys run.result.1) run.pcs.verifierKey) :=
  committed_success.2 ⟨hok, rfl, rfl, rfl⟩

/-- The claim two runs commit, when they start at one tip. -/
theorem claim_eq_of_sameTip {r₁ r₂ : GuestRun sys} {c₁ c₂ : Claim} {d₁ d₂ : Bytes32}
    {k₁ k₂ : VerifierKeyDigest} (hstate : SameTip r₁.state r₂.state)
    (hheaders : r₁.headers = r₂.headers)
    (h₁ : HeaderChainPublicValues.parse r₁.committed = .ok (.success c₁ d₁ k₁))
    (h₂ : HeaderChainPublicValues.parse r₂.committed = .ok (.success c₂ d₂ k₂)) : c₁ = c₂ := by
  obtain ⟨hok₁, hclaim₁, -⟩ := committed_success.1 h₁
  obtain ⟨hok₂, hclaim₂, -⟩ := committed_success.1 h₂
  have hrun₁ : applyHeaders (hashHeader sys) r₁.state r₁.headers r₁.medianHints =
      .ok (r₁.result.1, .ok ()) := by rw [← hok₁]; exact r₁.applied
  have hrun₂ : applyHeaders (hashHeader sys) r₂.state r₂.headers r₂.medianHints =
      .ok (r₂.result.1, .ok ()) := by rw [← hok₂]; exact r₂.applied
  rw [← hheaders] at hrun₂
  have hfinal := hstate.run (applyHeaders_ok.1 hrun₁).2 (applyHeaders_ok.1 hrun₂).2
  rw [hclaim₁, hclaim₂, hfinal.publicClaim]

/-- **At height zero the anchor is trusted.**  Two runs that commit successes commit the same
claim when their anchors share genesis hash, tip hash, chain work, difficulty and epoch start and
their header bytes are equal; and every state of height zero is admitted as an anchor, under every
key. -/
theorem claim_eq_of_anchor (sys : Sha256Syscalls) :
    (∀ (r₁ r₂ : GuestRun sys) (c₁ c₂ : Claim) (d₁ d₂ : Bytes32) (k₁ k₂ : VerifierKeyDigest),
      r₁.pcs.claim.height = 0 → r₂.pcs.claim.height = 0 →
      r₁.pcs.claim.genesisHash = r₂.pcs.claim.genesisHash →
      r₁.input.headerHints.bytes = r₂.input.headerHints.bytes →
      HeaderChainPublicValues.parse r₁.committed = .ok (.success c₁ d₁ k₁) →
      HeaderChainPublicValues.parse r₂.committed = .ok (.success c₂ d₂ k₂) →
      r₁.state.blockHash = r₂.state.blockHash → r₁.state.chainWork = r₂.state.chainWork →
      r₁.state.difficulty = r₂.state.difficulty →
      r₁.state.epochStartTimestamp = r₂.state.epochStartTimestamp → c₁ = c₂) ∧
    (∀ (anchor : State) (vk : VerifierKeyDigest), anchor.height = 0 →
      ∃ run : GuestRun sys, run.state = anchor ∧ run.pcs.verifierKey = vk ∧
        HeaderChainPublicValues.parse run.committed =
          .ok (.success anchor.publicClaim (computeContinuationDigest sys anchor) vk)) := by
  refine ⟨fun r₁ r₂ c₁ c₂ d₁ d₂ k₁ k₂ hh₁ hh₂ hgenesis hbytes hs₁ hs₂ htip hwork hdiff hepoch => ?_,
    fun anchor vk _ => ?_⟩
  · have hg : r₁.state.genesisHash = r₂.state.genesisHash := by
      rw [← r₁.claim_eq, ← r₂.claim_eq] at hgenesis
      exact hgenesis
    have h₁ : r₁.state.height = 0 := by rw [← hh₁, ← r₁.claim_eq]; rfl
    have h₂ : r₂.state.height = 0 := by rw [← hh₂, ← r₂.claim_eq]; rfl
    -- the first block is never at a boundary, so no retarget reads the anchor's timestamp
    have hstate : SameTip r₁.state r₂.state :=
      ⟨htip, hg, h₁.trans h₂.symm, hwork, hdiff, hepoch, fun hboundary => by
        rw [h₁] at hboundary
        exact absurd hboundary (by decide)⟩
    exact claim_eq_of_sameTip hstate (headers_eq_of_bytes hbytes) hs₁ hs₂
  · exact ⟨.idle sys anchor vk #v[0, 0, 0], rfl, rfl, idle_committed_success anchor vk _⟩

/-- The anchor with another header and another timestamp, which needs another hint. -/
def otherAnchor : State :=
  { easyAnchor with
    header := { easyAnchor.header with nonce := 7 }
    timestamps := Vector.replicate WINDOW_SIZE 5 }

/-- On both anchors two headers are accepted. -/
theorem applyHeaders_twoAnchors :
    applyHeaders (hashHeader .reference) easyAnchor [headerAt 8, headerAt 9] [0, 8] =
        .ok ((easyAnchor.extend (hashHeader .reference) (headerAt 8)).extend
          (hashHeader .reference) (headerAt 9), .ok ()) ∧
      applyHeaders (hashHeader .reference) otherAnchor [headerAt 8, headerAt 9] [5, 8] =
        .ok ((otherAnchor.extend (hashHeader .reference) (headerAt 8)).extend
          (hashHeader .reference) (headerAt 9), .ok ()) := by
  constructor
  · have hfirst : applyHeaders (hashHeader .reference) easyAnchor [headerAt 8] [0] =
        .ok (easyAnchor.extend (hashHeader .reference) (headerAt 8), .ok ()) :=
      applyHeaders_singleton (by decide +kernel)
        (acceptHeader_maxTarget rfl (by decide) (by decide +kernel))
    exact (applyHeaders_append_ok hfirst _).2 (applyHeaders_singleton (by decide +kernel)
      (acceptHeader_maxTarget rfl (by decide) (by decide +kernel)))
  · have hfirst : applyHeaders (hashHeader .reference) otherAnchor [headerAt 8] [5] =
        .ok (otherAnchor.extend (hashHeader .reference) (headerAt 8), .ok ()) :=
      applyHeaders_singleton (by decide +kernel)
        (acceptHeader_maxTarget rfl (by decide) (by decide +kernel))
    exact (applyHeaders_append_ok hfirst _).2 (applyHeaders_singleton (by decide +kernel)
      (acceptHeader_maxTarget rfl (by decide) (by decide +kernel)))

/-- Two anchors with different headers and timestamps that both accept two headers. -/
theorem claim_eq_of_anchor_easy :
    let first := GuestRun.matching .reference easyAnchor exampleKey #v[0, 0, 0]
      [headerAt 8, headerAt 9] [0, 8] _ applyHeaders_twoAnchors.1
    let second := GuestRun.matching .reference otherAnchor exampleKey #v[0, 0, 0]
      [headerAt 8, headerAt 9] [5, 8] _ applyHeaders_twoAnchors.2
    first.state.header.nonce ≠ second.state.header.nonce ∧
      first.state.tipTimestamp ≠ second.state.tipTimestamp ∧ first.result.1.height = 2 ∧
      first.result.1.publicClaim = second.result.1.publicClaim := by
  intro first second
  have htimes : easyAnchor.tipTimestamp ≠ otherAnchor.tipTimestamp := by decide +kernel
  have hdifficulty : easyAnchor.difficulty = otherAnchor.difficulty := by decide +kernel
  have hheaders : first.input.headerHints = ⟨0, serializeNewHeaders [headerAt 8, headerAt 9]⟩ := rfl
  have hheaders' : second.input.headerHints = ⟨0, serializeNewHeaders [headerAt 8, headerAt 9]⟩ :=
    rfl
  refine ⟨show (0 : UInt32) ≠ 7 by decide, htimes, rfl, ?_⟩
  refine (claim_eq_of_anchor .reference).1 first second _ _ _ _ _ _ rfl rfl
    (show easyAnchor.genesisHash = otherAnchor.genesisHash from rfl) (by rw [hheaders, hheaders'])
    (first.parse_committed rfl) (second.parse_committed rfl) ?_ ?_ hdifficulty ?_
  · show easyAnchor.blockHash = otherAnchor.blockHash
    rfl
  · show easyAnchor.chainWork = otherAnchor.chainWork
    rfl
  · show easyAnchor.epochStartTimestamp = otherAnchor.epochStartTimestamp
    rfl

/-- Two runs from anchors with the same genesis hash that commit different chain work. -/
theorem genesisHash_not_binding :
    ¬ ∀ (r₁ r₂ : GuestRun .reference) (c₁ c₂ : Claim) (d₁ d₂ : Bytes32)
        (k₁ k₂ : VerifierKeyDigest),
      r₁.pcs.claim.height = 0 → r₂.pcs.claim.height = 0 →
      r₁.pcs.claim.genesisHash = r₂.pcs.claim.genesisHash →
      r₁.pcs.verifierKey = r₂.pcs.verifierKey →
      r₁.input.headerHints.bytes = r₂.input.headerHints.bytes →
      HeaderChainPublicValues.parse r₁.committed = .ok (.success c₁ d₁ k₁) →
      HeaderChainPublicValues.parse r₂.committed = .ok (.success c₂ d₂ k₂) → c₁ = c₂ := by
  intro hall
  let t : State := { State.default with chainWork := ⟨#v[1, 0, 0, 0]⟩ }
  have hclaim : State.default.publicClaim = t.publicClaim :=
    hall (.idle .reference State.default (Vector.replicate 8 0) #v[0, 0, 0])
      (.idle .reference t (Vector.replicate 8 0) #v[0, 0, 0]) _ _ _ _ _ _
      (by rw [idle_claim]; rfl) (by rw [idle_claim]; rfl) (by rw [idle_claim, idle_claim]; rfl)
      (by rw [idle_verifierKey, idle_verifierKey]) (by rw [idle_headerHints, idle_headerHints])
      (idle_committed_success _ _ _) (idle_committed_success _ _ _)
  have hwork : State.default.chainWork = t.chainWork := congrArg Claim.chainWork hclaim
  exact absurd hwork (by decide)

end Anchors

end Zkpow
