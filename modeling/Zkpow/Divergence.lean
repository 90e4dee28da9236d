import Zkpow.Lib.Bisection
import Zkpow.Session

/-!
# The search for a diverging header

`find_first_diverging_state` of `crates/host/src/pipeline/batch.rs` bisects the headers of a batch
for the first one whose replayed claim is not the claim of the database.  The claims of the
database are columns of their own: nothing makes them disagree from some height on.

* `Cached` — what is replayed is kept, whatever index is asked for next;
* `Simulation.firstDiverging_ok` — what the search returns, by the rows it reads;
* `findFirstDivergingState_first_iff` — when that is the first bad header.
-/

set_option autoImplicit false

namespace Zkpow.Host

open ExceptFold Bisection

/-! ## Replayed and stored claims -/

/-- What the host simulates: a batch, the state it starts from and the database it is compared
with. -/
structure Simulation where
  currentState : State
  headers : List NewHeader
  medianHints : List BlockTimestamp
  firstNewHeight : UInt32
  db : Table
  genesisHash : BlockHash

namespace Simulation

variable (lib : HashLibrary) (x : Simulation)

/-- The state after the first `j` headers, applied one at a time. -/
def ReplayedTo (j : Nat) (state : State) : Prop :=
  applyBatches (hashHeader lib) x.currentState
    (((x.headers.zip x.medianHints).take j).map fun p => ([p.1], [p.2])) = .ok (state, .ok ())

/-- The claim of the database for header `j`. -/
def dbClaim (j : Nat) : Except DbPanic Claim :=
  loadPublicClaim x.db (x.firstNewHeight + UInt32.ofNat j).toNat x.genesisHash

/-- The database claims for header `j` what is replayed. -/
def AgreesAt (j : Nat) : Prop :=
  ∃ state, x.ReplayedTo lib (j + 1) state ∧ x.dbClaim j = .ok state.publicClaim

/-- The database claims something else. -/
def DiffersAt (j : Nat) : Prop :=
  ∃ state claim, x.ReplayedTo lib (j + 1) state ∧ x.dbClaim j = .ok claim ∧
    state.publicClaim ≠ claim

/-- `find_first_diverging_state` on a simulation. -/
def firstDiverging : Except HostPanic (Nat × State) :=
  findFirstDivergingState lib x.headers x.medianHints x.firstNewHeight x.db x.genesisHash
    x.currentState

/-- The search returns the first header at which the database differs, and the state there. -/
def ReportsFirst : Prop :=
  ∃ i state, x.firstDiverging lib = .ok (i, state) ∧ i < x.headers.length ∧
    x.ReplayedTo lib (i + 1) state ∧
    (∃ claim, x.dbClaim i = .ok claim ∧ state.publicClaim ≠ claim) ∧ ∀ j < i, x.AgreesAt lib j

variable {lib x}

/-- One header at a time, or all of them in a call. -/
theorem replayedTo_iff (hlen : x.headers.length = x.medianHints.length) {j : Nat} {state : State}
    (hj : j ≤ x.headers.length) : x.ReplayedTo lib j state ↔
      AcceptedPrefix (hashHeader lib) x.currentState x.headers x.medianHints j state := by
  have hfst : ((x.headers.zip x.medianHints).take j).map Prod.fst = x.headers.take j := by
    rw [List.map_take, List.map_fst_zip (Nat.le_of_eq hlen)]
  have hsnd : ((x.headers.zip x.medianHints).take j).map Prod.snd = x.medianHints.take j := by
    rw [List.map_take, List.map_snd_zip (Nat.le_of_eq hlen.symm)]
  have hsingle : ∀ b ∈ ((x.headers.zip x.medianHints).take j).map fun p => ([p.1], [p.2]),
      b.1.length = b.2.length := by
    intro b hb
    obtain ⟨p, _, rfl⟩ := List.mem_map.1 hb
    rfl
  unfold ReplayedTo AcceptedPrefix
  rw [applyBatches_eq_applyHeaders hsingle, List.flatMap_map, List.flatMap_map,
    ← List.map_eq_flatMap, ← List.map_eq_flatMap, hfst, hsnd]
  exact ⟨fun h => ⟨hj, h⟩, fun h => h.2⟩

/-- The states of a successful replay: `states j` after `j` headers. -/
structure States (lib : HashLibrary) (x : Simulation) (states : Nat → State) : Prop where
  length_eq : x.headers.length = x.medianHints.length
  accepted : ∀ j ≤ x.headers.length,
    AcceptedPrefix (hashHeader lib) x.currentState x.headers x.medianHints j (states j)

/-- A replay that succeeds passes through a state after each header. -/
theorem exists_states {e : State} (hreplay : computeFinalStateWithHints lib x.currentState
    x.headers x.medianHints = .ok e) : ∃ states, x.States lib states := by
  have happly := computeFinalStateWithHints_ok.1 hreplay
  have hend := acceptedPrefix_length happly
  have hall : ∀ j, ∃ state, j ≤ x.headers.length →
      AcceptedPrefix (hashHeader lib) x.currentState x.headers x.medianHints j state := by
    intro j
    by_cases hj : j ≤ x.headers.length
    · obtain ⟨state, hstate⟩ := hend.of_le hj
      exact ⟨state, fun _ => hstate⟩
    · exact ⟨e, fun h => absurd h hj⟩
  choose states hstates using hall
  exact ⟨states, (applyHeaders_ok.1 happly).1.length_eq, hstates⟩

section Replay

variable {states : Nat → State} (hx : x.States lib states)

include hx

theorem States.replayedTo_iff {j : Nat} (hj : j ≤ x.headers.length) {state : State} :
    x.ReplayedTo lib j state ↔ state = states j := by
  rw [Simulation.replayedTo_iff hx.length_eq hj]
  constructor
  · intro h
    exact h.unique (hx.accepted j hj)
  · rintro rfl
    exact hx.accepted j hj

theorem States.zero : states 0 = x.currentState := by
  have h := (hx.accepted 0 (Nat.zero_le _)).2
  rw [List.take_zero, List.take_zero, applyHeaders_nil] at h
  exact (Prod.mk.inj (Except.ok.inj h)).1.symm

theorem States.agreesAt_iff {j : Nat} (hj : j < x.headers.length) :
    x.AgreesAt lib j ↔ x.dbClaim j = .ok (states (j + 1)).publicClaim := by
  unfold AgreesAt
  simp only [hx.replayedTo_iff hj, exists_eq_left]

theorem States.differsAt_iff {j : Nat} (hj : j < x.headers.length) :
    x.DiffersAt lib j ↔
      ∃ claim, x.dbClaim j = .ok claim ∧ (states (j + 1)).publicClaim ≠ claim := by
  unfold DiffersAt
  simp only [hx.replayedTo_iff hj]
  constructor
  · rintro ⟨_, claim, rfl, hclaim, hne⟩
    exact ⟨claim, hclaim, hne⟩
  · rintro ⟨claim, hclaim, hne⟩
    exact ⟨_, claim, rfl, hclaim, hne⟩

end Replay

/-! ## The cache of replayed states -/

/-- The cache holds the states after the first headers, the last of them the current one. -/
structure Cached (x : Simulation) (states : Nat → State) (r : Replay) : Prop where
  replayState : r.replayState = states r.replayedStates.length
  replayedStates : ∀ j < r.replayedStates.length, r.replayedStates[j]? = some (states (j + 1))
  length_le : r.replayedStates.length ≤ x.headers.length

section Cache

variable {states : Nat → State} (hx : x.States lib states)

include hx

theorem Cached.start : x.Cached states ⟨x.currentState, []⟩ where
  replayState := hx.zero.symm
  replayedStates j hj := absurd hj (Nat.not_lt_zero j)
  length_le := Nat.zero_le _

/-- One turn of `replay_states_through` adds the next state. -/
theorem Cached.step {r : Replay} (hr : x.Cached states r)
    (hlt : r.replayedStates.length < x.headers.length) :
    ∃ r', replayStep lib x.headers x.medianHints r = .ok r' ∧ x.Cached states r' ∧
      r'.replayedStates.length = r.replayedStates.length + 1 := by
  have hhint : r.replayedStates.length < x.medianHints.length := hx.length_eq ▸ hlt
  have happly : applyHeaders (hashHeader lib) r.replayState [x.headers[r.replayedStates.length]]
      [x.medianHints[r.replayedStates.length]] =
        .ok (states (r.replayedStates.length + 1), .ok ()) := by
    rw [hr.replayState]
    exact (hx.accepted _ hlt.le).applyHeaders hlt hhint (hx.accepted _ hlt)
  refine ⟨⟨states (r.replayedStates.length + 1),
    r.replayedStates ++ [states (r.replayedStates.length + 1)]⟩, ?_, ⟨?_, ?_, ?_⟩, ?_⟩
  · unfold replayStep
    simp only [List.getElem?_eq_getElem hlt, List.getElem?_eq_getElem hhint, happly]
  · simp
  · intro j hj
    rw [List.length_append, List.length_singleton] at hj
    rcases Nat.lt_or_eq_of_le (Nat.le_of_lt_succ hj) with hjlt | rfl
    · rw [List.getElem?_append_left hjlt, hr.replayedStates j hjlt]
    · simp
  · simp only [List.length_append, List.length_singleton]
    exact hlt
  · simp

/-- Any number of turns, within the batch. -/
theorem Cached.steps : ∀ (turns : List Nat) {r : Replay}, x.Cached states r →
    r.replayedStates.length + turns.length ≤ x.headers.length →
    ∃ r', turns.foldlM (fun r _ => replayStep lib x.headers x.medianHints r) r = .ok r' ∧
      x.Cached states r' ∧ r'.replayedStates.length = r.replayedStates.length + turns.length := by
  intro turns
  induction turns with
  | nil => exact fun hr _ => ⟨_, rfl, hr, rfl⟩
  | cons turn turns ih =>
    intro r hr hle
    rw [List.length_cons] at hle
    obtain ⟨r₁, hstep, hr₁, hlen₁⟩ := Cached.step hx hr (by omega)
    obtain ⟨r', hsteps, hr', hlen'⟩ := ih hr₁ (by omega)
    refine ⟨r', ?_, hr', by rw [hlen', hlen₁, List.length_cons]; omega⟩
    rw [foldlM_cons_of_ok hstep]
    exact hsteps

/-- **`replay_states_through` covers the index it is asked for**, and reads back the state after
that header. -/
theorem Cached.through {r : Replay} (hr : x.Cached states r) {index : Nat}
    (hindex : index < x.headers.length) :
    ∃ r', replayStatesThrough lib x.headers x.medianHints index r = .ok r' ∧ x.Cached states r' ∧
      r'.at index = .ok (states (index + 1)) := by
  have hle := hr.length_le
  obtain ⟨r', hrun, hr', hlen⟩ := Cached.steps hx (List.range' r.replayedStates.length
    (index + 1 - r.replayedStates.length)) hr (by rw [List.length_range']; omega)
  rw [List.length_range'] at hlen
  refine ⟨r', hrun, hr', ?_⟩
  unfold Replay.at
  rw [hr'.replayedStates index (by omega)]

end Cache

/-! ## The search -/

/-- The body of the loop of `find_first_diverging_state`: replay, read the row, compare. -/
def probeFrom (lib : HashLibrary) (x : Simulation) (r : Replay) (mid : Nat) :
    Except HostPanic (Bool × Replay) := do
  let r ← replayStatesThrough lib x.headers x.medianHints mid r
  let dbClaim ← (x.dbClaim mid).mapError .db
  let state ← r.at mid
  return (decide (state.publicClaim = dbClaim), r)

/-- The same comparison with a state that is known. -/
def probe (x : Simulation) (states : Nat → State) (mid : Nat) : Except HostPanic Bool :=
  ((x.dbClaim mid).mapError .db).map fun claim =>
    decide ((states (mid + 1)).publicClaim = claim)

theorem probeFrom_bind {β : Type} (r : Replay) (mid : Nat)
    (next : Bool × Replay → Except HostPanic β) :
    x.probeFrom lib r mid >>= next =
      replayStatesThrough lib x.headers x.medianHints mid r >>= fun r' =>
        (x.dbClaim mid).mapError HostPanic.db >>= fun claim =>
          r'.at mid >>= fun state => next (decide (state.publicClaim = claim), r') := by
  simp only [probeFrom, bind_assoc, pure_bind]

/-- The loop is a bisection by its body. -/
theorem bisectDivergence_eq (r : Replay) (lo hi : Nat) :
    bisectDivergence lib x.headers x.medianHints x.firstNewHeight x.db x.genesisHash r lo hi =
      searchFrom (x.probeFrom lib) r lo hi := by
  induction lo, hi using probes.induct 0 generalizing r with
  | case1 lo hi hlt ihright ihleft =>
    rw [bisectDivergence, searchFrom, if_pos hlt, if_pos hlt, probeFrom_bind]
    refine bind_congr fun r' => bind_congr fun claim => bind_congr fun state => ?_
    show (if state.publicClaim = claim then _ else _) =
      (if decide (state.publicClaim = claim) = true then _ else _)
    by_cases heq : state.publicClaim = claim
    · rw [if_pos heq, if_pos (decide_eq_true heq)]
      exact ihright r'
    · rw [if_neg heq, if_neg (by simpa using heq)]
      exact ihleft r'
  | case2 lo hi hge =>
    rw [bisectDivergence, searchFrom, if_neg hge, if_neg hge]

section Search

variable {states : Nat → State} (hx : x.States lib states)

include hx

/-- The body finds the replayed state in the cache, and compares it. -/
theorem probeFrom_agree (r : Replay) (mid : Nat) (hr : x.Cached states r)
    (hmid : mid < x.headers.length) :
    Agree (fun p right => p.1 = right ∧ x.Cached states p.2) (· = ·) (x.probeFrom lib r mid)
      (x.probe states mid) := by
  obtain ⟨r', hthrough, hr', hat⟩ := Cached.through hx hr hmid
  unfold probeFrom probe
  rw [hthrough]
  cases hclaim : (x.dbClaim mid).mapError HostPanic.db with
  | error p => exact .error rfl
  | ok claim =>
    show Agree _ _ (r'.at mid >>= fun state => _) _
    rw [hat]
    exact .ok ⟨rfl, hr'⟩

/-- What reading a row tells. -/
theorem probe_ok_iff {mid : Nat} (hmid : mid < x.headers.length) {right : Bool} :
    x.probe states mid = .ok right ↔
      if right then x.AgreesAt lib mid else x.DiffersAt lib mid := by
  unfold probe
  rw [map_ok]
  simp only [mapError_ok]
  cases right with
  | true =>
    rw [if_pos rfl, hx.agreesAt_iff hmid]
    constructor
    · rintro ⟨claim, hclaim, heq⟩
      rw [hclaim, of_decide_eq_true heq]
    · intro hclaim
      exact ⟨_, hclaim, decide_eq_true rfl⟩
  | false =>
    rw [if_neg Bool.false_ne_true, hx.differsAt_iff hmid]
    simp only [decide_eq_false_iff_not]

/-- Where the bisection ends, by the rows it reads. -/
theorem search_probe_ok (hpos : 0 < x.headers.length) {i : Nat} :
    search (x.probe states) 0 (x.headers.length - 1) = .ok i ↔
      i < x.headers.length ∧ ∀ mid ∈ probes 0 (x.headers.length - 1) i,
        if mid < i then x.AgreesAt lib mid else x.DiffersAt lib mid := by
  rw [search_ok_iff (Nat.zero_le _)]
  constructor
  · rintro ⟨_, hle, hall⟩
    refine ⟨by omega, fun mid hmem => ?_⟩
    have hmid := (mem_probes hmem).2
    simpa using (probe_ok_iff hx (by omega)).1 (hall mid hmem)
  · rintro ⟨hlt, hall⟩
    refine ⟨Nat.zero_le i, by omega, fun mid hmem => ?_⟩
    have hmid := (mem_probes hmem).2
    exact (probe_ok_iff hx (by omega)).2 (by simpa using hall mid hmem)

/-- After the bisection the state is read from the cache. -/
theorem firstDiverging_eq_search (hpos : 0 < x.headers.length) {i : Nat} {state : State} :
    x.firstDiverging lib = .ok (i, state) ↔
      search (x.probe states) 0 (x.headers.length - 1) = .ok i ∧ state = states (i + 1) := by
  have hagree : Agree (fun p i => p.1 = i ∧ x.Cached states p.2) (· = ·)
      (searchFrom (x.probeFrom lib) ⟨x.currentState, []⟩ 0 (x.headers.length - 1))
      (search (x.probe states) 0 (x.headers.length - 1)) :=
    searchFrom_agree (probeFrom_agree hx) (Cached.start hx) (Nat.sub_le _ 1)
  unfold firstDiverging findFirstDivergingState
  rw [if_neg (by simpa using List.length_pos_iff.1 hpos), if_neg (not_not.2 hx.length_eq),
    bisectDivergence_eq]
  generalize hstop : search (x.probe states) 0 (x.headers.length - 1) = found at hagree ⊢
  generalize searchFrom (x.probeFrom lib) ⟨x.currentState, []⟩ 0 (x.headers.length - 1) = result
    at hagree ⊢
  cases hagree with
  | error he =>
    constructor
    · intro h
      cases h
    · rintro ⟨h, _⟩
      cases h
  | @ok p j hp =>
    obtain ⟨rfl, hcached⟩ := hp
    have hlt : p.1 < x.headers.length := ((search_probe_ok hx hpos).1 hstop).1
    obtain ⟨r', hthrough, _, hat⟩ := Cached.through hx hcached hlt
    show (replayStatesThrough lib x.headers x.medianHints p.1 p.2 >>= fun r => _) = _ ↔ _
    rw [hthrough]
    show (r'.at p.1 >>= fun state => _) = _ ↔ _
    rw [hat, Except.ok.injEq]
    constructor
    · intro h
      cases h
      exact ⟨rfl, rfl⟩
    · rintro ⟨rfl, rfl⟩
      rfl

/-- **What the search returns**: an index, with the state after its header, such that the rows
read on the way to it agree below it and differ from it on. -/
theorem firstDiverging_ok {i : Nat} {state : State} :
    x.firstDiverging lib = .ok (i, state) ↔
      i < x.headers.length ∧ x.ReplayedTo lib (i + 1) state ∧
        ∀ mid ∈ probes 0 (x.headers.length - 1) i,
          if mid < i then x.AgreesAt lib mid else x.DiffersAt lib mid := by
  rcases Nat.eq_zero_or_pos x.headers.length with hempty | hpos
  · have hnone : x.firstDiverging lib = .error .noHeaders := by
      unfold firstDiverging findFirstDivergingState
      rw [if_pos (by simpa using hempty)]
    rw [hnone]
    constructor
    · intro h
      cases h
    · rintro ⟨h, _⟩
      omega
  · rw [firstDiverging_eq_search hx hpos, search_probe_ok hx hpos]
    constructor
    · rintro ⟨⟨hlt, hreads⟩, hstate⟩
      exact ⟨hlt, (hx.replayedTo_iff hlt).2 hstate, hreads⟩
    · rintro ⟨hlt, hstate, hreads⟩
      exact ⟨⟨hlt, hreads⟩, (hx.replayedTo_iff hlt).1 hstate⟩

theorem not_differsAt {j : Nat} (hj : j < x.headers.length) (h : x.AgreesAt lib j) :
    ¬ x.DiffersAt lib j := by
  rw [hx.differsAt_iff hj, (hx.agreesAt_iff hj).1 h]
  rintro ⟨claim, hclaim, hne⟩
  cases hclaim
  exact hne rfl

/-- What is reported first is the first row that differs, and every row read above it differs. -/
theorem ReportsFirst.reads (h : x.ReportsFirst lib) :
    ∃ i < x.headers.length, (∀ j < i, x.AgreesAt lib j) ∧ x.DiffersAt lib i ∧
      ∀ mid ∈ probes 0 (x.headers.length - 1) i, i ≤ mid → x.DiffersAt lib mid := by
  obtain ⟨i, state, hfound, hi, hstate, ⟨claim, hclaim, hne⟩, hagree⟩ := h
  refine ⟨i, hi, hagree, ⟨state, claim, hstate, hclaim, hne⟩, ?_⟩
  intro mid hmem hle
  have hread := ((firstDiverging_ok hx).1 hfound).2.2 mid hmem
  rwa [if_neg (Nat.not_lt.2 hle)] at hread

/-- The rows below the first that differs agree, so that only those read above it matter. -/
theorem ReportsFirst.of_reads {i : Nat} (hi : i < x.headers.length)
    (hagree : ∀ j < i, x.AgreesAt lib j) (hdiffers : x.DiffersAt lib i)
    (hreads : ∀ mid ∈ probes 0 (x.headers.length - 1) i, i ≤ mid → x.DiffersAt lib mid) :
    x.ReportsFirst lib := by
  obtain ⟨state, claim, hstate, hclaim, hne⟩ := hdiffers
  refine ⟨i, state, (firstDiverging_ok hx).2 ⟨hi, hstate, fun mid hmem => ?_⟩, hi, hstate,
    ⟨claim, hclaim, hne⟩, hagree⟩
  by_cases hmid : mid < i
  · rw [if_pos hmid]
    exact hagree mid hmid
  · rw [if_neg hmid]
    exact hreads mid hmem (Nat.not_lt.1 hmid)

/-- **A table that differs from some header on** has that header found. -/
theorem ReportsFirst.of_monotone {i : Nat} (hi : i < x.headers.length)
    (hagree : ∀ j < i, x.AgreesAt lib j)
    (hdiffers : ∀ j, i ≤ j → j < x.headers.length → x.DiffersAt lib j) : x.ReportsFirst lib := by
  apply ReportsFirst.of_reads hx hi hagree (hdiffers i (Nat.le_refl i) hi)
  intro mid hmem hle
  have hmid := (mem_probes hmem).2
  exact hdiffers mid hle (by omega)

end Search

end Simulation

/-- **When the search reports the first bad header.**  On a batch whose replay succeeds it does
exactly if, with `i` the first header at which the row differs, the rows it reads above `i` on the
way to `i` differ too. -/
theorem findFirstDivergingState_first_iff (lib : HashLibrary) (x : Simulation) {e : State}
    (hreplay : computeFinalStateWithHints lib x.currentState x.headers x.medianHints = .ok e) :
    x.ReportsFirst lib ↔
      ∃ i < x.headers.length, (∀ j < i, x.AgreesAt lib j) ∧ x.DiffersAt lib i ∧
        ∀ mid ∈ probes 0 (x.headers.length - 1) i, i ≤ mid → x.DiffersAt lib mid := by
  obtain ⟨states, hx⟩ := Simulation.exists_states hreplay
  constructor
  · exact Simulation.ReportsFirst.reads hx
  · rintro ⟨i, hi, hagree, hdiffers, hreads⟩
    exact Simulation.ReportsFirst.of_reads hx hi hagree hdiffers hreads

/-! ## Three headers of the main chain -/

section Mainnet

/-- The hash of the block of height 3. -/
def thirdHash : BlockHash := #v[
  0x49, 0x44, 0x46, 0x95, 0x62, 0xae, 0x1c, 0x2c, 0x74, 0xd9, 0xa5, 0x35,
  0xe0, 0x0b, 0x6f, 0x3e, 0x40, 0xff, 0xba, 0xd4, 0xf2, 0xfd, 0xa3, 0x89,
  0x55, 0x01, 0xb5, 0x82, 0x00, 0x00, 0x00, 0x00]

def thirdHeader : Header where
  version := 1
  prevBlockhash := mainnetHash 2
  merkleRoot := #v[
    0x44, 0xf6, 0x72, 0x22, 0x60, 0x90, 0xd8, 0x5d, 0xb9, 0xa9, 0xf2, 0xfb,
    0xfe, 0x5f, 0x0f, 0x96, 0x09, 0xb3, 0x87, 0xaf, 0x7b, 0xe5, 0xb7, 0xfb,
    0xb7, 0xa1, 0x76, 0x7c, 0x83, 0x1c, 0x9e, 0x99]
  timestamp := 1231470173
  compactTarget := 0x1d00ffff
  nonce := 1844305925

def thirdState : State := { mainnetState 2 with
  header := thirdHeader
  blockHash := thirdHash
  height := 3
  chainWork := mainnetWork 3
  timestamps := (mainnetState 2).timestamps.set 3 1231470173 }

/-- The table of hashes with one more. -/
def thirdHashHeader (header : Header) : BlockHash :=
  if header = thirdHeader then thirdHash else mainnetHashHeader header

theorem thirdHashHeader_eq : thirdHashHeader = hashHeader .reference := by
  have hthird : hashHeader .reference thirdHeader = thirdHash := by decide +kernel
  funext header
  unfold thirdHashHeader
  split
  · rename_i h
    rw [h, hthird]
  · rw [mainnetHashHeader_eq]

/-- The row of a height, with or without its chain work. -/
def rowWith (known : Bool) (row : Row) : Row :=
  if known then row else { row with chainwork := List.replicate 32 0 }

/-- The first three headers after genesis, against rows of which some know their chain work. -/
def mainnetSimulation (known₁ known₂ known₃ : Bool) : Simulation where
  currentState := mainnetState 0
  headers := [.fromHeader (mainnetHeader 1), .fromHeader (mainnetHeader 2),
    .fromHeader thirdHeader]
  medianHints := [mainnetMedian 1, mainnetMedian 2, 1231469665]
  firstNewHeight := 1
  db := [mainnetRow 0, rowWith known₁ (mainnetRow 1), rowWith known₂ (mainnetRow 2),
    rowWith known₃ { mainnetRow 2 with
      height := 3
      blockHash := thirdHash.toList
      prev := (mainnetHash 2).toList
      merkleRoot := thirdHeader.merkleRoot.toList
      timestamp := 1231470173
      nonce := 1844305925
      chainwork := (mainnetWork 3).toLeBytes.toList.reverse
      medianTimePast := 1231469665 }]
  genesisHash := GENESIS_HASH

/-- The state after each of the three headers. -/
def threeStates : Nat → State
  | 3 => thirdState
  | j => mainnetState j

variable (known₁ known₂ known₃ : Bool)

theorem mainnetSimulation_replayedTo {j : Nat} (hj : j ≤ 3) :
    (mainnetSimulation known₁ known₂ known₃).ReplayedTo .reference j (threeStates j) := by
  unfold Simulation.ReplayedTo
  rw [← thirdHashHeader_eq]
  show applyBatches thirdHashHeader (mainnetState 0) ((List.take j
    [(NewHeader.fromHeader (mainnetHeader 1), mainnetMedian 1),
      (.fromHeader (mainnetHeader 2), mainnetMedian 2),
      (.fromHeader thirdHeader, 1231469665)]).map fun p => ([p.1], [p.2])) = _
  interval_cases j <;> decide +kernel

theorem mainnetSimulation_replay :
    computeFinalStateWithHints .reference (mainnetSimulation known₁ known₂ known₃).currentState
      (mainnetSimulation known₁ known₂ known₃).headers
      (mainnetSimulation known₁ known₂ known₃).medianHints = .ok thirdState := by
  have hall := mainnetSimulation_replayedTo known₁ known₂ known₃ (Nat.le_refl 3)
  rw [Simulation.replayedTo_iff rfl (Nat.le_refl 3)] at hall
  exact computeFinalStateWithHints_ok.2 hall.2

theorem mainnetSimulation_dbClaim {j : Nat} (hj : j < 3) :
    (mainnetSimulation known₁ known₂ known₃).dbClaim j =
      .ok { (threeStates (j + 1)).publicClaim with
        chainWork := if [known₁, known₂, known₃].getD j false then mainnetWork (j + 1)
          else ⟨#v[0, 0, 0, 0]⟩ } := by
  revert known₁ known₂ known₃
  interval_cases j <;> decide +kernel

/-- A row that knows its chain work agrees, and one that does not differs. -/
theorem mainnetSimulation_agreesAt {j : Nat} (hj : j < 3) :
    if [known₁, known₂, known₃].getD j false then
      (mainnetSimulation known₁ known₂ known₃).AgreesAt .reference j
    else (mainnetSimulation known₁ known₂ known₃).DiffersAt .reference j := by
  have hstate := mainnetSimulation_replayedTo known₁ known₂ known₃ (Nat.succ_le_of_lt hj)
  have hclaim := mainnetSimulation_dbClaim known₁ known₂ known₃ hj
  have hwork : (threeStates (j + 1)).publicClaim.chainWork = mainnetWork (j + 1) ∧
      mainnetWork (j + 1) ≠ ⟨#v[0, 0, 0, 0]⟩ := by
    interval_cases j <;> decide +kernel
  split
  · rename_i hknown
    rw [if_pos hknown, ← hwork.1] at hclaim
    exact ⟨_, hstate, hclaim⟩
  · rename_i hknown
    rw [if_neg hknown] at hclaim
    refine ⟨_, _, hstate, hclaim, fun h => hwork.2 ?_⟩
    rw [← hwork.1, h]

/-- **The search can miss the first bad header.**  The rows of heights 1 and 3 have the wrong chain
work, and the row between them the right one: the search reads that row only, and reports
header 2 where the first to differ is header 0. -/
theorem findFirstDivergingState_misses :
    let x := mainnetSimulation false true false
    computeFinalStateWithHints .reference x.currentState x.headers x.medianHints =
        .ok thirdState ∧
      x.DiffersAt .reference (x.headers.length - 1) ∧
      x.firstDiverging .reference = .ok (2, thirdState) ∧
      x.DiffersAt .reference 0 ∧ ¬ x.ReportsFirst .reference := by
  intro x
  have hreplay := mainnetSimulation_replay false true false
  have hat := fun j hj => mainnetSimulation_agreesAt false true false (j := j) hj
  obtain ⟨states, hx⟩ := Simulation.exists_states (x := x) hreplay
  have hfound : x.firstDiverging .reference = .ok (2, thirdState) := by
    refine (Simulation.firstDiverging_ok hx).2 ⟨by decide,
      mainnetSimulation_replayedTo false true false (Nat.le_refl 3), ?_⟩
    intro mid hmem
    have hone : probes 0 2 2 = [1] := by
      rw [probes_of_middle_lt (by decide : 0 < 2) (by decide : middle 0 2 < 2),
        probes_of_le (by decide : 2 ≤ middle 0 2 + 1)]
      rfl
    change mid ∈ probes 0 2 2 at hmem
    rw [hone, List.mem_singleton] at hmem
    subst hmem
    exact hat 1 (by decide)
  refine ⟨hreplay, hat 2 (by decide), hfound, hat 0 (by decide), ?_⟩
  rintro ⟨i, state, hreported, -, -, -, hagree⟩
  rw [hfound] at hreported
  cases hreported
  exact Simulation.not_differsAt hx (by decide) (hagree 0 (by decide)) (hat 0 (by decide))

/-- With the wrong chain work from height 2 on, the search reports header 1. -/
theorem findFirstDivergingState_first_iff_mainnet :
    (mainnetSimulation true false false).ReportsFirst .reference := by
  have hat := fun j hj => mainnetSimulation_agreesAt true false false (j := j) hj
  refine (findFirstDivergingState_first_iff .reference _
    (mainnetSimulation_replay true false false)).2 ⟨1, by decide, ?_, hat 1 (by decide), ?_⟩
  · intro j hj
    obtain rfl : j = 0 := by omega
    exact hat 0 (by decide)
  · intro mid hmem hle
    have hmid : mid < 2 := (mem_probes hmem).2
    obtain rfl : mid = 1 := by omega
    exact hat 1 (by decide)

end Mainnet

end Zkpow.Host
