import Mathlib.Tactic
import Zkpow.TipBinding

/-!
# Proving in batches

A chain of runs, each extending the one before it, against one run over all the headers.

* `committed_by_one_run` — what a run commits, one run from the anchor commits without any proof;
* `exists_batch_runs` — whichever way accepted headers are cut into batches, a chain of runs with
  one run for each batch commits what the one run commits.
-/

set_option autoImplicit false

namespace Zkpow

open ByteCodec ExceptFold

section Runs

variable {sys : Sha256Syscalls} {K : VerifierKeyDigest} {history : List (HaltedRun sys)}

/-! ## One run -/

/-- From an anchor of height zero there is a run on any headers, which relies on no proof. -/
theorem exists_single {anchor : State} (hheight : anchor.height = 0)
    (verifierKey : VerifierKeyDigest) (headers : List NewHeader) : ∃ single : GuestRun sys,
      single.state = anchor ∧ single.headers = headers ∧ single.pcs.verifierKey = verifierKey ∧
      ∀ vk d, single.verifySp1Proof vk d = false := by
  obtain ⟨hints, hhints⟩ : ∃ hints, HintsCorrect (hashHeader sys) anchor headers hints :=
    exists_hintsCorrect headers anchor
  have hlow : ¬ 0 < anchor.height := by
    rw [hheight]
    decide
  exact ⟨.onInputs sys (fun _ _ => false) anchor verifierKey .default headers hints _
    (fun h => absurd h hlow) (applyHeaders_ok_iff.2 ⟨hhints, rfl⟩), rfl, rfl, rfl, fun _ _ => rfl⟩

/-- What the runs before a run accepted leads to its state. -/
theorem Grounded.exists_earlier (hsys : sys.Fips)
    (hcont : Set.InjOn Sha256.hash {b | HashedContinuation history b})
    (hpv : Set.InjOn Sha256.hash {b | HashedPublicValues history b}) {anchor : State}
    {headers : List NewHeader} {run : GuestRun sys} (h : Grounded history anchor headers run) :
    ∃ earlier mid, headers = earlier ++ run.accepted ∧ anchor.height = 0 ∧
      earlier.foldlM (acceptHeader (hashHeader sys)) anchor = .ok mid ∧
      SameButHeader mid run.state := by
  cases h with
  | first _ _ hstate hheight => exact ⟨[], anchor, rfl, hheight, rfl, hstate ▸ .refl _⟩
  | @next earlier prior _ hprior hrun hextends =>
    obtain ⟨mid, hmid⟩ := hprior.groundedAt hsys hcont hpv
    obtain ⟨hagree, -⟩ := extends_sameButHeader hsys hcont hpv hrun hprior.mem hextends
    exact ⟨earlier, mid, rfl, hmid.height, hmid.applied, hmid.agrees.trans hagree⟩

/-- Headers that lead to the state of a run can be put before its own. -/
theorem committed_eq_of_earlier {single run : GuestRun sys} {earlier : List NewHeader} {mid : State}
    (hmid : earlier.foldlM (acceptHeader (hashHeader sys)) single.state = .ok mid)
    (hagree : SameButHeader mid run.state) (hheaders : single.headers = earlier ++ run.headers)
    (hkey : single.pcs.verifierKey = run.pcs.verifierKey) : single.committed = run.committed := by
  unfold GuestRun.committed
  rw [single.result_eq, run.result_eq, hkey, hheaders, foldlM_append_ok hmid,
    committedPublicValues_eq (foldlM_agree _ hagree run.headers)]

/-- **One run would do.**  In every history, whatever a run commits under the guest's key, success
or failure, is committed byte for byte by a single run from an anchor of height zero, over the
headers accepted on the way and those of the run, that relies on no proof. -/
theorem committed_by_one_run (hsys : sys.Fips) (hhistory : History K history)
    (hcont : Set.InjOn Sha256.hash {b | HashedContinuation history b})
    (hpv : Set.InjOn Sha256.hash {b | HashedPublicValues history b}) {run : GuestRun sys}
    (hrun : .guest run ∈ history) (hkey : run.pcs.verifierKey = K) :
    ∃ (anchor : State) (earlier : List NewHeader) (single : GuestRun sys),
      Grounded history anchor (earlier ++ run.accepted) run ∧ anchor.height = 0 ∧
      single.state = anchor ∧ single.headers = earlier ++ run.headers ∧
      single.pcs.verifierKey = K ∧ (∀ vk d, single.verifySp1Proof vk d = false) ∧
      single.committed = run.committed := by
  obtain ⟨anchor, headers, final, hground⟩ :=
    grounded_of_history hsys hhistory hcont hpv run hrun hkey
  obtain ⟨earlier, mid, rfl, hheight, hmid, hagree⟩ :=
    hground.grounded.exists_earlier hsys hcont hpv
  obtain ⟨single, hstate, hheaders, hsingle, hverify⟩ : ∃ single : GuestRun sys,
      single.state = anchor ∧ single.headers = earlier ++ run.headers ∧
      single.pcs.verifierKey = K ∧ ∀ vk d, single.verifySp1Proof vk d = false :=
    exists_single hheight K _
  refine ⟨anchor, earlier, single, hground.grounded, hheight, hstate, hheaders, hsingle, hverify,
    committed_eq_of_earlier (hstate ▸ hmid) hagree hheaders (hsingle.trans hkey.symm)⟩

end Runs

/-- The run that extends the first by no header, in one run. -/
theorem committed_by_one_run_example : ∃ single : GuestRun .reference,
    single.state.height = 0 ∧ (∀ vk d, single.verifySp1Proof vk d = false) ∧
      single.committed = exampleSecond.committed := by
  obtain ⟨anchor, earlier, single, -, hheight, hstate, -, -, hverify, hcommitted⟩ :=
    committed_by_one_run Sha256Syscalls.reference_fips exampleHistory_history
      exampleHistory_injOn.1 exampleHistory_injOn.2 (List.mem_cons_self ..)
      (rfl : exampleSecond.pcs.verifierKey = exampleKey)
  exact ⟨single, hstate ▸ hheight, hverify, hcommitted⟩

/-! ## A run for each batch -/

section Batches

variable {sys : Sha256Syscalls} {K : VerifierKeyDigest}

theorem acceptedHeaders_of_ok {hashHeader : Header → BlockHash} :
    ∀ {headers : List NewHeader} {s t : State},
      headers.foldlM (acceptHeader hashHeader) s = .ok t →
      acceptedHeaders hashHeader s headers = headers
  | [], _, _, _ => rfl
  | nh :: headers, s, t, h => by
    obtain ⟨s', hacc, hrest⟩ := foldlM_cons_ok.1 h
    unfold acceptedHeaders
    rw [hacc]
    simp only
    rw [acceptedHeaders_of_ok hrest]

/-- A verifier that accepts what runs before it committed, and nothing else. -/
def honestVerifier (K : VerifierKeyDigest) (past : List (HaltedRun sys)) : Sp1Verifier :=
  fun vk d => past.any fun prior => prior.key K == vk && Sha256.hash prior.committed == d

theorem honestVerifier_iff {past : List (HaltedRun sys)} {vk : VerifierKeyDigest} {d : Bytes32} :
    honestVerifier K past vk d = true ↔
      ∃ prior ∈ past, prior.key K = vk ∧ Sha256.hash prior.committed = d := by
  simp [honestVerifier]

/-- **The step**: a run that accepted all of its headers can be extended. -/
theorem exists_extension (hsys : sys.Fips) {past : List (HaltedRun sys)} {prior : GuestRun sys}
    {mid : State} (hhistory : History K (.guest prior :: past))
    (hkey : prior.pcs.verifierKey = K)
    (hmid : prior.headers.foldlM (acceptHeader (hashHeader sys)) prior.state = .ok mid)
    (hheight : 0 < mid.height) (headers : List NewHeader) : ∃ run : GuestRun sys,
      History K (.guest run :: .guest prior :: past) ∧ run.Extends (.guest prior) ∧
      run.state = mid ∧ run.headers = headers ∧ run.pcs.verifierKey = K := by
  obtain ⟨hints, hhints⟩ : ∃ hints, HintsCorrect (hashHeader sys) mid headers hints :=
    exists_hintsCorrect headers mid
  have hdigest : Sha256.hash prior.committed =
      (matchingProof sys mid K #v[0, 0, 0]).publicValuesDigest := by
    rw [GuestRun.committed, prior.result_eq, hmid, hkey, matchingProof, publicValuesDigest_eq hsys]
    rfl
  refine ⟨.onInputs sys (honestVerifier K (.guest prior :: past)) mid K
    (matchingProof sys mid K #v[0, 0, 0]) headers hints _ (fun _ => ⟨rfl, rfl, ?_⟩)
    (applyHeaders_ok_iff.2 ⟨hhints, rfl⟩), ?_, ⟨hheight, hdigest⟩, rfl, rfl, rfl⟩
  · exact honestVerifier_iff.2 ⟨_, List.mem_cons_self .., rfl, hdigest⟩
  · exact .guest _ hhistory fun vk d h => honestVerifier_iff.1 h

/-- Batches that are accepted one after the other are proved one after the other. -/
theorem exists_runs (hsys : sys.Fips) {anchor : State} (hheight : anchor.height = 0) :
    ∀ (batches : List (List NewHeader)) (last : List NewHeader) {mid : State},
      (∀ b ∈ batches, b ≠ []) → batches.flatten.length < 2 ^ 32 →
      batches.flatten.foldlM (acceptHeader (hashHeader sys)) anchor = .ok mid →
      ∃ (priors : List (GuestRun sys)) (run : GuestRun sys),
        History K (.guest run :: priors.map .guest) ∧
        priors.map GuestRun.headers = batches.reverse ∧
        Grounded (.guest run :: priors.map .guest) anchor (batches.flatten ++ run.accepted) run ∧
        run.state = mid ∧ run.headers = last ∧ run.pcs.verifierKey = K := by
  intro batches
  induction batches using List.reverseRecOn with
  | nil =>
    intro last mid _ _ hmid
    obtain rfl : anchor = mid := foldlM_nil_ok.1 hmid
    obtain ⟨single, hstate, hheaders, hkey, hverify⟩ : ∃ single : GuestRun sys,
        single.state = anchor ∧ single.headers = last ∧ single.pcs.verifierKey = K ∧
        ∀ vk d, single.verifySp1Proof vk d = false := exists_single hheight K last
    refine ⟨[], single, .guest single .nil fun vk d h => ?_, rfl, ?_, hstate, hheaders, hkey⟩
    · rw [hverify] at h
      cases h
    · exact .first single (List.mem_cons_self ..) hstate hheight
  | append_singleton batches b ih =>
    intro last mid hne hlen hmid
    rw [List.flatten_append, List.flatten_singleton] at hlen hmid ⊢
    obtain ⟨before, hbefore, hb⟩ := foldlM_append_ok_iff.1 hmid
    have hlen' : batches.flatten.length < 2 ^ 32 := by
      rw [List.length_append] at hlen
      omega
    obtain ⟨priors, prior, hhistory, hbatches, hground, hstate, hheaders, hkey⟩ :=
      ih b (fun b hb => hne b (List.mem_append_left _ hb)) hlen' hbefore
    have hall : prior.headers.foldlM (acceptHeader (hashHeader sys)) prior.state = .ok mid := by
      rw [hheaders, hstate, hb]
    have hpos : 0 < mid.height := by
      have hb' : 0 < b.length := List.length_pos_iff.2 (hne b (by simp))
      have hzero : anchor.height.toNat = 0 := by rw [hheight]; rfl
      have hnat := toNat_height_of_foldlM hmid (by omega)
      rw [UInt32.lt_iff_toNat_lt, hnat, List.length_append]
      show 0 < _
      omega
    obtain ⟨run, hhistory', hextends, hstate', hheaders', hkey'⟩ :=
      exists_extension hsys hhistory hkey hall hpos last
    refine ⟨prior :: priors, run, hhistory', ?_, ?_, hstate', hheaders', hkey'⟩
    · rw [List.map_cons, hbatches, hheaders, List.reverse_append, List.reverse_singleton]
      rfl
    · have haccepted : prior.accepted = b := by
        rw [GuestRun.accepted, acceptedHeaders_of_ok hall, hheaders]
      have hnext := Grounded.next run hground.mono (List.mem_cons_self ..) hextends
      rw [haccepted] at hnext
      exact hnext

/-- **Any batches will do.**  However headers that are accepted from an anchor are cut into
batches, there is a history of one run for each batch and one for the headers that come last,
each extending the one before it, whose last run commits byte for byte what one run over all the
headers commits, also when the last headers are not all accepted. -/
theorem exists_batch_runs (hsys : sys.Fips) (K : VerifierKeyDigest) {anchor mid : State}
    (hheight : anchor.height = 0) (batches : List (List NewHeader)) (last : List NewHeader)
    (hne : ∀ b ∈ batches, b ≠ []) (hlen : batches.flatten.length < 2 ^ 32)
    (haccepted : batches.flatten.foldlM (acceptHeader (hashHeader sys)) anchor = .ok mid) :
    ∃ (priors : List (GuestRun sys)) (run single : GuestRun sys),
      History K (.guest run :: priors.map .guest) ∧
      priors.map GuestRun.headers = batches.reverse ∧ run.headers = last ∧
      Grounded (.guest run :: priors.map .guest) anchor (batches.flatten ++ run.accepted) run ∧
      single.state = anchor ∧ single.headers = batches.flatten ++ last ∧
      (∀ vk d, single.verifySp1Proof vk d = false) ∧ single.committed = run.committed := by
  obtain ⟨priors, run, hhistory, hbatches, hground, hstate, hheaders, hkey⟩ :=
    exists_runs hsys hheight batches last hne hlen haccepted
  obtain ⟨single, hstate', hheaders', hkey', hverify⟩ : ∃ single : GuestRun sys,
      single.state = anchor ∧ single.headers = batches.flatten ++ last ∧
      single.pcs.verifierKey = K ∧ ∀ vk d, single.verifySp1Proof vk d = false :=
    exists_single hheight K _
  refine ⟨priors, run, single, hhistory, hbatches, hheaders, hground, hstate', hheaders', hverify,
    committed_eq_of_earlier (hstate' ▸ haccepted) ?_ ?_ (hkey'.trans hkey.symm)⟩
  · rw [hstate]
    exact .refl _
  · rw [hheaders', hheaders]

end Batches

/-- One header in a batch of its own, and a second that is too old. -/
theorem exists_batch_runs_example : ∃ prior run single : GuestRun .reference,
    History exampleKey [.guest run, .guest prior] ∧ prior.headers = [headerAt 1] ∧
      run.headers = [headerAt 1] ∧ single.headers = [headerAt 1, headerAt 1] ∧
      single.committed = run.committed := by
  have hrun := (applyHeaders_ok.1 applyHeaders_easyAnchor).2
  obtain ⟨priors, run, single, hhistory, hbatches, hheaders, -, -, hsingle, -, hcommitted⟩ :=
    exists_batch_runs Sha256Syscalls.reference_fips exampleKey rfl [[headerAt 1]] [headerAt 1]
      (by simp) (by decide) hrun
  obtain ⟨prior, rfl, hprior⟩ := List.map_eq_singleton_iff.1 hbatches
  exact ⟨prior, run, single, hhistory, hprior, hheaders, hsingle, hcommitted⟩

end Zkpow
