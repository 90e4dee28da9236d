import Mathlib.Tactic
import Zkpow.Recursion
import Zkpow.Lib.HashChain

/-!
# The tip hash commits to the history

A header carries the hash of the one before it, so the tip hash of a state fixes the headers that
led to it.  For recursive runs: what two of them commit for one tip at one height, from one anchor,
differs in nothing, unless two different headers have the same hash.

* `headerChain_linked` — the accepted headers, written out in full, are hash-linked;
* `committed_eq_of_tip` — committed public values with equal tip and height.
-/

set_option autoImplicit false

namespace Zkpow

open ByteCodec ExceptFold HashChain

/-! ## Full headers -/

section Headers

variable {hashHeader : Header → BlockHash}

/-- The full headers that new headers stand for on top of a state. -/
def headerChain (hashHeader : Header → BlockHash) : State → List NewHeader → List Header
  | _, [] => []
  | s, nh :: headers => s.candidate nh :: headerChain hashHeader (s.extend hashHeader nh) headers

theorem headerChain_fromHeader : ∀ (headers : List NewHeader) (s : State),
    (headerChain hashHeader s headers).map NewHeader.fromHeader = headers
  | [], _ => rfl
  | nh :: headers, s => by
    rw [headerChain, List.map_cons, headerChain_fromHeader headers]
    rfl

theorem length_headerChain (s : State) (headers : List NewHeader) :
    (headerChain hashHeader s headers).length = headers.length := by
  rw [← List.length_map NewHeader.fromHeader, headerChain_fromHeader]

/-- **The headers of a run are linked** from the tip of the state it starts in. -/
theorem headerChain_linked : ∀ (headers : List NewHeader) (s : State),
    Linked hashHeader Header.prevBlockhash s.blockHash (headerChain hashHeader s headers)
  | [], _ => trivial
  | nh :: headers, s => ⟨rfl, headerChain_linked headers (s.extend hashHeader nh)⟩

/-- The tip of an accepted run is that of its full headers. -/
theorem blockHash_of_foldlM : ∀ {headers : List NewHeader} {s t : State},
    headers.foldlM (acceptHeader hashHeader) s = .ok t →
    t.blockHash = tip hashHeader s.blockHash (headerChain hashHeader s headers)
  | [], s, t, h => by
    rw [foldlM_nil_ok] at h
    rw [← h]
    rfl
  | nh :: headers, s, t, h => by
    obtain ⟨s', hacc, hrest⟩ := foldlM_cons_ok.1 h
    obtain ⟨-, -, rfl⟩ := acceptHeader_ok.1 hacc
    rw [blockHash_of_foldlM hrest]
    rfl

/-- Accepted runs as long as each other, with one tip, have the same headers on the same block. -/
theorem headers_eq_of_tip {s s' t t' : State} {xs ys : List NewHeader}
    (hlen : xs.length = ys.length) (hx : xs.foldlM (acceptHeader hashHeader) s = .ok t)
    (hy : ys.foldlM (acceptHeader hashHeader) s' = .ok t') (htip : t.blockHash = t'.blockHash) :
    (xs = ys ∧ s.blockHash = s'.blockHash) ∨
      Collision hashHeader (headerChain hashHeader s xs) (headerChain hashHeader s' ys) := by
  rw [blockHash_of_foldlM hx, blockHash_of_foldlM hy] at htip
  have hlen' : (headerChain hashHeader s xs).length = (headerChain hashHeader s' ys).length := by
    rw [length_headerChain, length_headerChain, hlen]
  refine (eq_or_collision hlen' (headerChain_linked xs s) (headerChain_linked ys s')
    htip).imp_left fun ⟨heq, hstart⟩ => ⟨?_, hstart⟩
  calc xs = (headerChain hashHeader s xs).map NewHeader.fromHeader :=
        (headerChain_fromHeader xs s).symm
    _ = ys := by rw [heq, headerChain_fromHeader]

end Headers

/-! ## Recursive runs -/

section Runs

variable {sys : Sha256Syscalls} {history : List (HaltedRun sys)}

theorem Grounded.mem {anchor : State} {headers : List NewHeader} {run : GuestRun sys}
    (h : Grounded history anchor headers run) : .guest run ∈ history := by
  cases h with
  | first _ hrun _ _ => exact hrun
  | next _ _ hrun _ => exact hrun

/-- The headers on the way from an anchor lead to a state the run cannot tell from its own. -/
theorem Grounded.groundedAt (hsys : sys.Fips)
    (hcont : Set.InjOn Sha256.hash {b | HashedContinuation history b})
    (hpv : Set.InjOn Sha256.hash {b | HashedPublicValues history b}) {anchor : State}
    {headers : List NewHeader} {run : GuestRun sys}
    (h : Grounded history anchor headers run) :
    ∃ final, GroundedAt history run anchor headers final := by
  induction h with
  | first run hrun hstate hheight =>
    subst hstate
    obtain ⟨final, hfinal, hagree⟩ :=
      foldlM_accepted_agree run (SameButHeader.refl run.state)
    exact ⟨final, .first run hrun rfl hheight, hheight, hfinal, hagree, genesisHash_foldlM hfinal⟩
  | @next headers prior run hprior hrun hextends ih =>
    obtain ⟨mid, hmid⟩ := ih
    obtain ⟨hagree, -⟩ := extends_sameButHeader hsys hcont hpv hrun hprior.mem hextends
    obtain ⟨final, hfinal, hfinalAgree⟩ := foldlM_accepted_agree run (hmid.agrees.trans hagree)
    refine ⟨final, .next run hprior hrun hextends, hmid.height, ?_, hfinalAgree, ?_⟩
    · rw [foldlM_append_ok hmid.applied, hfinal]
    · rw [genesisHash_foldlM hfinal, hmid.genesisHash]

/-- From an anchor of height zero the height counts the headers. -/
theorem GroundedAt.toNat_height {run : GuestRun sys} {anchor final : State}
    {headers : List NewHeader} (h : GroundedAt history run anchor headers final)
    (hlen : headers.length < 2 ^ 32) : final.height.toNat = headers.length := by
  have hzero : anchor.height.toNat = 0 := by rw [h.height]; rfl
  rw [toNat_height_of_foldlM h.applied (by omega), hzero, Nat.zero_add]

/-- **A committed tip commits to everything.**  Two runs of a history that descend from one anchor
and commit the same tip hash at the same height accepted the same headers, and commit the same
work and the same continuation digest; or the headers they accepted contain a collision. -/
theorem committed_eq_of_tip (hsys : sys.Fips)
    (hcont : Set.InjOn Sha256.hash {b | HashedContinuation history b})
    (hpv : Set.InjOn Sha256.hash {b | HashedPublicValues history b})
    {anchor₁ anchor₂ : State} {headers₁ headers₂ : List NewHeader} {run₁ run₂ : GuestRun sys}
    (h₁ : Grounded history anchor₁ headers₁ run₁) (h₂ : Grounded history anchor₂ headers₂ run₂)
    (hanchor : SameButHeader anchor₁ anchor₂)
    (hlen₁ : headers₁.length < 2 ^ 32) (hlen₂ : headers₂.length < 2 ^ 32)
    {pv₁ pv₂ : MinimalPublicValues} (hc₁ : run₁.committed = pv₁.toBytes)
    (hc₂ : run₂.committed = pv₂.toBytes) (htip : pv₁.tipHash = pv₂.tipHash)
    (hheight : pv₁.height = pv₂.height) :
    (headers₁ = headers₂ ∧ pv₁.genesisHash = pv₂.genesisHash ∧ pv₁.chainWork = pv₂.chainWork ∧
      pv₁.continuationDigest = pv₂.continuationDigest) ∨
    Collision (hashHeader sys) (headerChain (hashHeader sys) anchor₁ headers₁)
      (headerChain (hashHeader sys) anchor₂ headers₂) := by
  obtain ⟨final₁, g₁⟩ := h₁.groundedAt hsys hcont hpv
  obtain ⟨final₂, g₂⟩ := h₂.groundedAt hsys hcont hpv
  obtain ⟨hclaim₁, hd₁, -⟩ := committed_fields run₁ hc₁
  obtain ⟨hclaim₂, hd₂, -⟩ := committed_fields run₂ hc₂
  rw [← g₁.agrees.publicClaim] at hclaim₁
  rw [← g₂.agrees.publicClaim] at hclaim₂
  have hheights : final₁.height = final₂.height :=
    (congrArg Claim.height hclaim₁).trans (hheight.trans (congrArg Claim.height hclaim₂).symm)
  have htips : final₁.blockHash = final₂.blockHash :=
    (congrArg Claim.tipHash hclaim₁).trans (htip.trans (congrArg Claim.tipHash hclaim₂).symm)
  have hlen : headers₁.length = headers₂.length := by
    rw [← g₁.toNat_height hlen₁, ← g₂.toNat_height hlen₂, hheights]
  refine (headers_eq_of_tip hlen g₁.applied g₂.applied htips).imp_left fun ⟨heq, _⟩ => ?_
  subst heq
  -- the same headers on anchors that cannot be told apart
  have hagree := foldlM_agree (hashHeader sys) hanchor headers₁
  rw [g₁.applied, g₂.applied] at hagree
  cases hagree with
  | ok hfinal =>
    have hclaims : pv₁.genesisHash = pv₂.genesisHash ∧
        U256.fromLeBytes pv₁.chainWork = U256.fromLeBytes pv₂.chainWork := by
      have hpub := hclaim₁.symm.trans (hfinal.publicClaim.trans hclaim₂)
      exact ⟨congrArg Claim.genesisHash hpub, congrArg Claim.chainWork hpub⟩
    refine ⟨rfl, hclaims.1, ?_, ?_⟩
    · rw [← U256.toLeBytes_fromLeBytes pv₁.chainWork, hclaims.2, U256.toLeBytes_fromLeBytes]
    · have hruns := (g₁.agrees.symm.trans hfinal).trans g₂.agrees
      rw [hd₁, hd₂, computeContinuationDigest_eq hsys, computeContinuationDigest_eq hsys,
        State.continuationBytes, State.continuationBytes, hruns.continuation]

end Runs

/-- A run that accepts one header, and the run that extends it by none: one tip. -/
theorem committed_eq_of_tip_example :
    ∃ headers, Grounded exampleHistory easyAnchor headers exampleSecond ∧
      (exampleFirst.accepted = headers ∨
        Collision (hashHeader .reference)
          (headerChain (hashHeader .reference) easyAnchor exampleFirst.accepted)
          (headerChain (hashHeader .reference) easyAnchor headers)) := by
  have hheight : 0 < exampleSecond.pcs.claim.height := by decide
  have hdigest := (exampleSecond.prior hheight).digest
  have hprior : publicValuesDigest .reference exampleSecond.priorPublicValues =
      exampleSecond.pcs.proof.publicValuesDigest := hdigest
  rw [publicValuesDigest_eq Sha256Syscalls.reference_fips, exampleSecond_prior,
    ← exampleFirst_committed] at hprior
  have hfirst : Grounded exampleHistory easyAnchor exampleFirst.accepted exampleFirst :=
    .first exampleFirst (by simp [exampleHistory]) rfl rfl
  have hsecond := Grounded.next exampleSecond hfirst (List.mem_cons_self ..)
    ⟨hheight, by rw [HaltedRun.committed_guest]; exact hprior⟩
  have hone : exampleFirst.accepted.length ≤ 1 := length_acceptedHeaders_le _ _
  have hnone : exampleSecond.accepted.length ≤ 0 := length_acceptedHeaders_le _ _
  refine ⟨_, hsecond, ?_⟩
  refine (committed_eq_of_tip Sha256Syscalls.reference_fips
    exampleHistory_injOn.1 exampleHistory_injOn.2 hfirst hsecond (.refl _) (by omega)
    (by rw [List.length_append]; omega) exampleFirst_committed exampleSecond_committed rfl
    rfl).imp_left And.left

end Zkpow
