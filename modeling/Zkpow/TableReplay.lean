import Zkpow.Coverage

/-!
# Replaying the table

What the queries of `util/db.rs` return belongs together.  The record query and the witness query
read the same headers and medians on every table; on a table that holds a chain, the replay of any
stretch of it ends in the claim and the compact target that the table has for its last block.

* `loadHeaderBatchWitness_eq_records` — the witness is the projection of the records;
* `replay_matches_table` — replays from any height to any height.
-/

set_option autoImplicit false

namespace Zkpow.Host

open ByteCodec ExceptFold KeyedTable

/-! ## Two queries for one range -/

theorem witnessOfRow_of_record {row : Row} {record : HeaderRecord}
    (h : HeaderRecord.ofRow row = .ok record) :
    witnessOfRow row = .ok (NewHeader.fromHeader record.header, record.medianTimePast) := by
  obtain ⟨height, header, chainWork, median⟩ := record
  have hheader : (NewHeader.fromHeader header).intoHeader header.prevBlockhash
      header.compactTarget = header := rfl
  rw [← hheader] at h
  exact witnessOfRow_of_ofRow h

/-- **The witness is the projection of the records**, on every table. -/
theorem loadHeaderBatchWitness_eq_records {db : Table} {startHeight count : Nat}
    {records : List HeaderRecord} (h : loadHeaderRecords db startHeight count = .ok records) :
    loadHeaderBatchWitness db startHeight count =
      .ok ⟨recordsToNewHeaders records, medianTimePastHintsFromRecords records⟩ := by
  have hrows : (selectHeights db startHeight (startHeight + count)).mapM witnessOfRow = .ok
      (records.map fun record => (NewHeader.fromHeader record.header, record.medianTimePast)) := by
    rw [mapM_ok_iff, List.forall₂_map_right_iff]
    exact (mapM_ok_iff.1 h).imp fun _ _ hrow => witnessOfRow_of_record hrow
  unfold loadHeaderBatchWitness
  rw [hrows]
  show Except.ok _ = _
  rw [List.map_map, List.map_map]
  rfl

/-! ## Replays -/

section Replay

variable {lib : HashLibrary} {db : Table} {row : Nat → Row} {c : Chain} {genesis : HeaderRecord}
  {work : Nat → ChainWork}

/-- The compact target column, when the row is read as a record. -/
theorem nBits_of_record {r : Row} {record : HeaderRecord} (h : HeaderRecord.ofRow r = .ok record) :
    UInt32.ofInt r.nBits = record.header.compactTarget := by
  unfold HeaderRecord.ofRow at h
  obtain ⟨_, -, h⟩ := bind_ok.1 h
  obtain ⟨_, -, h⟩ := bind_ok.1 h
  obtain ⟨_, -, h⟩ := bind_ok.1 h
  rw [← Except.ok.inj h]

/-- The record of a block, whichever block it is. -/
theorem exists_blockRecord (h : HoldsChain (hashHeader lib) db row c genesis work) {k : Nat}
    (hk : k ≤ c.headers.length) :
    ∃ record, HeaderRecord.ofRow (row k) = .ok record ∧ record.height = k ∧
      hashHeader lib record.header = c.hashAt (hashHeader lib) k ∧ record.chainWork = work k ∧
      record.header.compactTarget = (c.difficultyAt k).1 := by
  cases k with
  | zero => exact ⟨genesis, h.genesisRow, h.genesis_height, h.genesisHash, h.genesisWork,
      h.genesisBits⟩
  | succ k => exact ⟨_, h.header k hk, rfl, (Chain.hashAt_succ (hashHeader lib) hk).symm, rfl, rfl⟩

/-- **Any replay ends where the table says.**  On a table that holds a chain, resume from any height
and replay the headers up to any later one: the state reached has the claim and the compact target
that the table has for its height, and so does the record of that height. -/
theorem replay_matches_table (h : HoldsChain (hashHeader lib) db row c genesis work) {j k : Nat}
    (hjk : j ≤ k) (hk : k ≤ c.headers.length) (hbound : k < 2 ^ 32) :
    ∃ s records e record,
      stateFromDbAtHeight (hashHeader lib) db (UInt32.ofNat j) c.genesisHash = .ok s ∧
      loadHeaderRecords db (j + 1) (k - j) = .ok records ∧
      loadNewHeaders db (j + 1) (k - j) = .ok (recordsToNewHeaders records) ∧
      computeFinalStateWithHints lib s (recordsToNewHeaders records)
        (medianTimePastHintsFromRecords records) = .ok e ∧
      e.height = UInt32.ofNat k ∧
      loadPublicClaim db k c.genesisHash = .ok e.publicClaim ∧
      loadCompactTarget db k = .ok e.currentNbits ∧
      loadHeaderRecord db k = .ok record ∧
      record.publicClaim (hashHeader lib) c.genesisHash = e.publicClaim := by
  obtain ⟨g, hg⟩ := h.exists_genesis
  obtain ⟨records, hrecords⟩ : ∃ records, loadHeaderRecords db (j + 1) (k - j) = .ok records :=
    h.exists_records (by omega)
  have hwitness := loadHeaderBatchWitness_eq_records hrecords
  have hmin : j + min (k - j) (c.headers.length - j) = k := by omega
  have hchain := h.loadHeaderBatchWitness (hjk.trans hk) (k - j)
  rw [hwitness] at hchain
  obtain ⟨hheaders, hmedians⟩ := HeaderBatchWitness.mk.inj (Except.ok.inj hchain)
  have hfits : j + min (k - j) (c.headers.length - j) < 2 ^ 32 := by rwa [hmin]
  have happly := h.applyHeaders hg (hjk.trans hk) hfits
  rw [hmin, ← hheaders, ← hmedians] at happly
  obtain ⟨record, hrow, hheight, hhash, hwork, hbits⟩ := exists_blockRecord h hk
  refine ⟨_, records, _, record, h.stateFromDbAtHeight hg (hjk.trans hk) (by omega), hrecords, ?_,
    computeFinalStateWithHints_ok.2 happly, h.stateAt_height hg hk hbound,
    h.loadPublicClaim hg hk hbound, ?_, h.loadHeaderRecord hk hrow, ?_⟩
  · unfold loadNewHeaders
    rw [hwitness]
    rfl
  · unfold loadCompactTarget
    rw [h.onePer.find_eq (Nat.lt_succ_of_le hk)]
    simp only
    rw [nBits_of_record hrow, hbits, (h.inv hg hk hbound).nbits]
  · rw [HeaderRecord.publicClaim, h.stateAt_claim hg hk hbound, hhash, hwork, hheight]

/-- Block 2 of the main chain, replayed from block 1. -/
theorem replay_matches_table_mainnet : ∃ s records e,
    stateFromDbAtHeight (hashHeader .reference) mainnetTable 1 GENESIS_HASH = .ok s ∧
      computeFinalStateWithHints .reference s (recordsToNewHeaders records)
        (medianTimePastHintsFromRecords records) = .ok e ∧
      loadPublicClaim mainnetTable 2 GENESIS_HASH = .ok e.publicClaim ∧
      loadCompactTarget mainnetTable 2 = .ok e.currentNbits := by
  obtain ⟨s, records, e, _, hs, -, -, hrun, -, hclaim, hbits, -⟩ :=
    replay_matches_table mainnet_holdsChain (j := 1) (k := 2) (by decide) (by decide) (by decide)
  exact ⟨s, records, e, hs, hrun, hclaim, hbits⟩

end Replay

end Zkpow.Host
