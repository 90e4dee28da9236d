import Mathlib.Tactic
import Zkpow.Database

/-!
# A table that holds a valid chain

One row for every block of a chain all of whose blocks are valid, with the columns the header
database keeps: what the host reads from such a table is the chain.

* `HoldsChain.stateFromDbAtHeight` — a state read back is the state after that block;
* `HoldsChain.loadHeaderBatchWitness` — the headers loaded for a batch are the next ones, and no
  more than there are;
* `HoldsChain.applyHeaders` — they lead from one state to the other.
-/

set_option autoImplicit false

namespace Zkpow

open ByteCodec ExceptFold RingWindow KeyedTable

/-! ## The table -/

/-- The rows of a table are the blocks of a valid chain: the genesis row, and for every other block
its full header, its hash, the accumulated work and the median of the blocks before it. -/
structure HoldsChain (hashHeader : Header → BlockHash) (db : Table) (row : Nat → Row) (c : Chain)
    (genesis : HeaderRecord) (work : Nat → ChainWork) : Prop where
  onePer : OnePer Row.height db row (c.headers.length + 1)
  top : ∀ r ∈ db, r.height ≤ c.headers.length
  genesisRow : HeaderRecord.ofRow (row 0) = .ok genesis
  genesisBits : genesis.header.compactTarget = GENESIS_NBITS
  genesisHash : hashHeader genesis.header = c.genesisHash
  genesisTimestamp : genesis.header.timestamp = c.genesisTimestamp
  genesisWork : genesis.chainWork = work 0
  header : ∀ k (hk : k < c.headers.length), HeaderRecord.ofRow (row (k + 1)) = .ok ⟨k + 1,
    c.headers[k].intoHeader (c.hashAt hashHeader k) (c.difficultyAt (k + 1)).1, work (k + 1),
    c.medianAt (k + 1)⟩
  blockHash : ∀ k, k ≤ c.headers.length →
    blob32 "block_hash" (row k).blockHash = .ok (c.hashAt hashHeader k)
  accumulated : ∀ k, k ≤ c.headers.length → (work k).toNat =
    ((work 0).toNat + ∑ j ∈ Finset.range k, c.workAt (j + 1)) % 2 ^ 256
  valid : ∀ h, 1 ≤ h → h ≤ c.headers.length → c.BlockValid hashHeader h

/-- The state after block `k`, replayed from a genesis state. -/
def Chain.stateAt (hashHeader : Header → BlockHash) (c : Chain) (g : State) (k : Nat) : State :=
  (outcome ((c.headers.take k).foldlM (acceptHeader hashHeader) g)).1

/-- The columns a batch needs of a row. -/
theorem witnessOfRow_of_ofRow {r : Row} {height : Nat} {newHeader : NewHeader} {prev : BlockHash}
    {bits : CompactTarget} {chainWork : ChainWork} {median : BlockTimestamp}
    (h : HeaderRecord.ofRow r =
      .ok ⟨height, newHeader.intoHeader prev bits, chainWork, median⟩) :
    witnessOfRow r = .ok (newHeader, median) := by
  unfold HeaderRecord.ofRow at h
  obtain ⟨prev', -, h⟩ := bind_ok.1 h
  obtain ⟨merkleRoot, hmerkleRoot, h⟩ := bind_ok.1 h
  obtain ⟨work, -, h⟩ := bind_ok.1 h
  have hrecord := Except.ok.inj h
  simp only [HeaderRecord.mk.injEq, NewHeader.intoHeader, Header.mk.injEq] at hrecord
  obtain ⟨-, ⟨hversion, -, hmerkle, htime, -, hnonce⟩, -, hmedian⟩ := hrecord
  unfold witnessOfRow
  rw [hmerkleRoot, hversion, hmerkle, htime, hnonce, hmedian]
  rfl

theorem chainWorkFromDbBytes_of_ofRow {r : Row} {record : HeaderRecord}
    (h : HeaderRecord.ofRow r = .ok record) :
    chainWorkFromDbBytes r.chainwork = .ok record.chainWork := by
  unfold HeaderRecord.ofRow at h
  obtain ⟨prev, -, h⟩ := bind_ok.1 h
  obtain ⟨merkleRoot, -, h⟩ := bind_ok.1 h
  obtain ⟨work, hwork, h⟩ := bind_ok.1 h
  rw [← Except.ok.inj h]
  exact hwork

/-- No header is loaded for a batch of none. -/
theorem loadHeaderBatchWitness_zero (db : Table) (startHeight : Nat) :
    loadHeaderBatchWitness db startHeight 0 = .ok ⟨[], []⟩ := by
  have hselect : selectHeights db startHeight (startHeight + 0) = [] := by
    rw [selectHeights, List.eq_nil_iff_forall_not_mem]
    intro r hr
    have hrange := (mem_select.1 hr).2
    omega
  unfold loadHeaderBatchWitness
  rw [hselect]
  rfl

namespace HoldsChain

variable {hashHeader : Header → BlockHash} {db : Table} {row : Nat → Row} {c : Chain}
  {genesis : HeaderRecord} {work : Nat → ChainWork}

/-! ## Replaying the chain -/

/-- The genesis row is the genesis state. -/
theorem exists_genesis (h : HoldsChain hashHeader db row c genesis work) :
    ∃ g, genesisStateFromRecord hashHeader genesis c.genesisHash = .ok g := by
  obtain ⟨genesisWork, hwork⟩ :=
    workFromTarget_ok (U256.le_iff.2 (Nat.le_refl GENESIS_TARGET.toNat))
  exact ⟨_, genesisStateFromRecord_ok.2 ⟨h.genesisHash, genesisWork, hwork, rfl⟩⟩

section Replay

variable {g : State} (h : HoldsChain hashHeader db row c genesis work)
  (hg : genesisStateFromRecord hashHeader genesis c.genesisHash = .ok g)

include h

theorem genesis_height : genesis.height = 0 := by
  obtain ⟨hheight, -⟩ := ofRow_spec h.genesisRow
  rw [hheight, h.onePer.key_row (Nat.succ_pos _)]
  rfl

include hg

theorem genesisState : GenesisState hashHeader genesis g :=
  genesisStateFromRecord_spec h.genesis_height h.genesisBits hg

/-- The genesis state starts the chain. -/
theorem start : ChainInv hashHeader c (work 0).toNat 0 g := by
  have hgs := h.genesisState hg
  obtain ⟨-, _, -, hgenesis⟩ := genesisStateFromRecord_ok.1 hg
  have hhash : g.blockHash = c.genesisHash := by rw [hgenesis]
  have hwork : g.chainWork = genesis.chainWork := by rw [hgenesis]
  have hchain : g.chain c.headers = c := by
    rw [State.chain, hhash, hgs.epochStart, h.genesisTimestamp]
  have hinv : ChainInv hashHeader (g.chain c.headers) g.chainWork.toNat 0 g :=
    .start hgs.isGenesis c.headers
  rw [hchain, hwork, h.genesisWork] at hinv
  exact hinv

/-- Every prefix of the chain replays. -/
theorem replay {k : Nat} (hk : k ≤ c.headers.length) (hbound : k < 2 ^ 32) :
    (c.headers.take k).foldlM (acceptHeader hashHeader) g = .ok (c.stateAt hashHeader g k) := by
  obtain ⟨s, hs⟩ := ((h.start hg).accepts_iff hk hbound).2 fun j h1 h2 =>
    h.valid j h1 (h2.trans hk)
  rw [Chain.stateAt, hs]
  rfl

theorem inv {k : Nat} (hk : k ≤ c.headers.length) (hbound : k < 2 ^ 32) :
    ChainInv hashHeader c (work 0).toNat k (c.stateAt hashHeader g k) :=
  (h.start hg).run hk hbound (h.replay hg hk hbound)

theorem stateAt_height {k : Nat} (hk : k ≤ c.headers.length) (hbound : k < 2 ^ 32) :
    (c.stateAt hashHeader g k).height = UInt32.ofNat k := by
  apply UInt32.toNat_inj.1
  rw [(h.inv hg hk hbound).height, UInt32.toNat_ofNat_of_lt' hbound]

/-- One block leads to the next state. -/
theorem acceptHeader {k : Nat} (hk : k < c.headers.length) (hbound : k + 1 < 2 ^ 32) :
    Zkpow.acceptHeader hashHeader (c.stateAt hashHeader g k) c.headers[k] =
      .ok (c.stateAt hashHeader g (k + 1)) := by
  have hnext := h.replay hg hk hbound
  rw [List.take_succ_eq_append_getElem hk, foldlM_append_ok (h.replay hg hk.le (by omega)),
    foldlM_cons_ok] at hnext
  obtain ⟨s, hacc, hs⟩ := hnext
  rw [foldlM_nil_ok] at hs
  rw [hacc, hs]

/-- The header of the state after a block is the full header of the block. -/
theorem stateAt_header {k : Nat} (hk : k < c.headers.length) (hbound : k + 1 < 2 ^ 32) :
    (c.stateAt hashHeader g (k + 1)).header =
      c.headers[k].intoHeader (c.hashAt hashHeader k) (c.difficultyAt (k + 1)).1 := by
  have hinv := h.inv hg hk.le (by omega)
  obtain ⟨hdiff, -⟩ := hinv.nextDifficulty hk.le hbound
  obtain ⟨-, -, hext⟩ := acceptHeader_ok.1 (h.acceptHeader hg hk hbound)
  rw [hext, ← hdiff, ← hinv.tip]
  rfl

/-- The claim after block `k`. -/
theorem stateAt_claim {k : Nat} (hk : k ≤ c.headers.length) (hbound : k < 2 ^ 32) :
    (c.stateAt hashHeader g k).publicClaim =
      ⟨c.genesisHash, c.hashAt hashHeader k, work k, UInt32.ofNat k⟩ := by
  have hinv := h.inv hg hk hbound
  have hgenesis : g.genesisHash = c.genesisHash := by
    obtain ⟨-, _, -, rfl⟩ := genesisStateFromRecord_ok.1 hg
    rfl
  have hwork : (c.stateAt hashHeader g k).chainWork = work k :=
    U256.toNat_inj (by rw [hinv.chainWork, h.accumulated k hk])
  rw [State.publicClaim, hinv.tip, hwork, h.stateAt_height hg hk hbound,
    genesisHash_foldlM (h.replay hg hk hbound), hgenesis]

end Replay

/-! ## What is loaded -/

/-- The row of a block. -/
theorem exists_record (h : HoldsChain hashHeader db row c genesis work) {k : Nat}
    (hk : k ≤ c.headers.length) :
    ∃ record, HeaderRecord.ofRow (row k) = .ok record ∧ record.chainWork = work k := by
  cases k with
  | zero => exact ⟨genesis, h.genesisRow, h.genesisWork⟩
  | succ k => exact ⟨_, h.header k hk, rfl⟩

/-- A range of rows inside the chain is read. -/
theorem exists_records (h : HoldsChain hashHeader db row c genesis work) {start count : Nat}
    (hle : start + count ≤ c.headers.length + 1) :
    ∃ records, loadHeaderRecords db start count = .ok records := by
  unfold loadHeaderRecords
  rw [selectHeights_eq h.onePer hle]
  have hrow : ∀ r ∈ (List.range' start count).map row,
      ∃ record, HeaderRecord.ofRow r = .ok record := by
    intro r hr
    obtain ⟨k, hk, rfl⟩ := List.mem_map.1 hr
    have hk' := List.mem_range'_1.1 hk
    obtain ⟨record, hrecord, -⟩ := h.exists_record (k := k) (by omega)
    exact ⟨record, hrecord⟩
  exact exists_mapM_ok hrow

/-- The record of a block is read. -/
theorem loadHeaderRecord (h : HoldsChain hashHeader db row c genesis work) {k : Nat}
    (hk : k ≤ c.headers.length) {record : HeaderRecord}
    (hrecord : HeaderRecord.ofRow (row k) = .ok record) :
    Zkpow.loadHeaderRecord db k = .ok record := by
  have hselect : selectHeights db k (k + 1) = [row k] := by
    rw [selectHeights_eq h.onePer (by omega)]
    rfl
  unfold Zkpow.loadHeaderRecord loadHeaderRecords
  rw [hselect, List.mapM_cons, hrecord]
  rfl

/-- The claim stored for a block is that of the state after it. -/
theorem loadPublicClaim (h : HoldsChain hashHeader db row c genesis work) {g : State}
    (hg : genesisStateFromRecord hashHeader genesis c.genesisHash = .ok g) {k : Nat}
    (hk : k ≤ c.headers.length) (hbound : k < 2 ^ 32) :
    Zkpow.loadPublicClaim db k c.genesisHash =
      .ok (c.stateAt hashHeader g k).publicClaim := by
  obtain ⟨record, hrecord, hwork⟩ := h.exists_record hk
  unfold Zkpow.loadPublicClaim
  rw [h.onePer.find_eq (Nat.lt_succ_of_le hk), h.stateAt_claim hg hk hbound]
  simp only
  rw [h.blockHash k hk, ← hwork, chainWorkFromDbBytes_of_ofRow hrecord]
  rfl

/-- The next headers, up to the last one, with their medians. -/
def batchHeaders (c : Chain) (k count : Nat) : List NewHeader := (c.headers.drop k).take count

def batchMedians (c : Chain) (k count : Nat) : List BlockTimestamp :=
  (List.range' (k + 1) (min count (c.headers.length - k))).map c.medianAt

theorem length_batchHeaders (c : Chain) (k count : Nat) :
    (batchHeaders c k count).length = min count (c.headers.length - k) := by
  rw [batchHeaders, List.length_take, List.length_drop]

theorem length_batchMedians (c : Chain) (k count : Nat) :
    (batchMedians c k count).length = min count (c.headers.length - k) := by
  rw [batchMedians, List.length_map, List.length_range']

/-- **The witness of a batch** is the next headers of the chain, as many as there are. -/
theorem loadHeaderBatchWitness (h : HoldsChain hashHeader db row c genesis work) {k : Nat}
    (hk : k ≤ c.headers.length) (count : Nat) :
    Zkpow.loadHeaderBatchWitness db (k + 1) count =
      .ok ⟨batchHeaders c k count, batchMedians c k count⟩ := by
  have hmin : min (k + 1 + count) (c.headers.length + 1) =
      k + 1 + min count (c.headers.length - k) := by omega
  have hselect : selectHeights db (k + 1) (k + 1 + count) =
      (List.range' (k + 1) (min count (c.headers.length - k))).map row := by
    have hmax : ∀ r ∈ db, r.height < (c.headers.length + 1 : Nat) := fun r hr => by
      have htop := h.top r hr
      omega
    rw [selectHeights, select_min hmax, hmin]
    exact h.onePer.select_eq (by omega)
  have hrows : (selectHeights db (k + 1) (k + 1 + count)).mapM witnessOfRow =
      .ok ((batchHeaders c k count).zip (batchMedians c k count)) := by
    rw [hselect, mapM_ok_iff, List.forall₂_iff_get]
    refine ⟨by simp [length_batchHeaders, length_batchMedians], fun i hi hi' => ?_⟩
    have hlt : i < min count (c.headers.length - k) := by simpa using hi
    have hrow := witnessOfRow_of_ofRow (h.header (k + i) (by omega))
    simp only [List.get_eq_getElem, List.getElem_map, List.getElem_range', List.getElem_zip,
      Nat.one_mul, batchHeaders, batchMedians, List.getElem_take, List.getElem_drop]
    rw [show k + 1 + i = k + i + 1 by omega]
    exact hrow
  unfold Zkpow.loadHeaderBatchWitness
  rw [hrows]
  have hlen : (batchHeaders c k count).length = (batchMedians c k count).length := by
    rw [length_batchHeaders, length_batchMedians]
  show Except.ok _ = _
  rw [List.map_fst_zip hlen.le, List.map_snd_zip hlen.ge]

/-! ## From state to state -/

section States

variable {g : State} (h : HoldsChain hashHeader db row c genesis work)
  (hg : genesisStateFromRecord hashHeader genesis c.genesisHash = .ok g)

include h hg

theorem replay_from {k n : Nat} (hn : k + n ≤ c.headers.length) (hbound : k + n < 2 ^ 32) :
    ((c.headers.drop k).take n).foldlM (Zkpow.acceptHeader hashHeader)
      (c.stateAt hashHeader g k) = .ok (c.stateAt hashHeader g (k + n)) := by
  have hall := h.replay hg hn hbound
  rw [List.take_add, foldlM_append_ok (h.replay hg (by omega) (by omega))] at hall
  exact hall

/-- **The headers of a batch lead from state to state**, with their medians as hints. -/
theorem applyHeaders {k count : Nat} (hk : k ≤ c.headers.length)
    (hbound : k + min count (c.headers.length - k) < 2 ^ 32) :
    Zkpow.applyHeaders hashHeader (c.stateAt hashHeader g k) (batchHeaders c k count)
        (batchMedians c k count) =
      .ok (c.stateAt hashHeader g (k + min count (c.headers.length - k)), .ok ()) := by
  have htake : ∀ i, i ≤ min count (c.headers.length - k) →
      (batchHeaders c k count).take i = (c.headers.drop k).take i := fun i hi => by
    rw [batchHeaders, List.take_take, Nat.min_eq_left (by omega)]
  have hfull : batchHeaders c k count =
      (c.headers.drop k).take (min count (c.headers.length - k)) := by
    rw [← htake _ (Nat.le_refl _), List.take_of_length_le (length_batchHeaders c k count).le]
  refine applyHeaders_ok.2 ⟨⟨?_, fun i hi s hs => ?_⟩, ?_⟩
  · rw [length_batchHeaders, length_batchMedians]
  · rw [length_batchMedians] at hi
    rw [htake i hi.le, h.replay_from hg (by omega) (by omega)] at hs
    have hmedian := (h.inv hg (k := k + i) (by omega) (by omega)).median (by omega)
    rw [← Except.ok.inj hs, hmedian]
    simp only [batchMedians, List.getElem_map, List.getElem_range', Nat.one_mul]
    rw [show k + 1 + i = k + i + 1 by omega]
  · rw [hfull]
    exact h.replay_from hg (by omega) hbound

/-- What is read for a block above genesis. -/
theorem exists_resumed {k : Nat} (hk : k < c.headers.length) (hbound : k + 1 < 2 ^ 32) :
    ∃ s, stateFromDbAtHeight hashHeader db (UInt32.ofNat (k + 1)) c.genesisHash = .ok s ∧
      s.header = (c.stateAt hashHeader g (k + 1)).header ∧ s.chainWork = work (k + 1) ∧
      s.height = UInt32.ofNat (k + 1) := by
  have hnat : (UInt32.ofNat (k + 1)).toNat = k + 1 := UInt32.toNat_ofNat_of_lt' hbound
  have hinv := h.inv hg (k := k + 1) hk hbound
  have hconsistent := foldlM_consistent (h.genesisState hg).consistent (h.replay hg hk hbound)
  have hheader := h.stateAt_header hg hk hbound
  have hcurrent := h.loadHeaderRecord hk (h.header k hk)
  have hwork : expectWork (targetFromBits (c.difficultyAt (k + 1)).1) =
      .ok (c.stateAt hashHeader g (k + 1)).currentWork := by
    rw [← hinv.nbits, ← hconsistent.target]
    exact expectWork_ok.2 hinv.work
  have hepochNat : (UInt32.ofNat (k + 1) / EPOCH_LENGTH * EPOCH_LENGTH).toNat ≤
      c.headers.length := by
    rw [UInt32.toNat_mul, UInt32.toNat_div, hnat]
    have hdiv := Nat.div_mul_le_self (k + 1) EPOCH_LENGTH.toNat
    exact (Nat.mod_le _ _).trans (hdiv.trans hk)
  obtain ⟨epochStart, hepochRow, -⟩ := h.exists_record hepochNat
  have hepoch := h.loadHeaderRecord hepochNat hepochRow
  obtain ⟨records, hrecords⟩ : ∃ records, loadHeaderRecords db
      (k + 1 + 1 - min (k + 1 + 1) WINDOW_SIZE) (min (k + 1 + 1) WINDOW_SIZE) = .ok records :=
    h.exists_records (by omega)
  unfold stateFromDbAtHeight
  rw [if_neg (fun h0 => by rw [h0] at hnat; cases hnat), hnat]
  refine ⟨_, bind_ok.2 ⟨_, hcurrent, bind_ok.2 ⟨_, hepoch, bind_ok.2 ⟨_, hrecords,
    bind_ok.2 ⟨_, hwork, rfl⟩⟩⟩⟩, ?_, rfl, rfl⟩
  rw [hheader]

/-- **The state read back for a block is the state after it.** -/
theorem stateFromDbAtHeight {k : Nat} (hk : k ≤ c.headers.length) (hbound : k < 2 ^ 32) :
    Zkpow.stateFromDbAtHeight hashHeader db (UInt32.ofNat k) c.genesisHash =
      .ok (c.stateAt hashHeader g k) := by
  have hgenesis := h.loadHeaderRecord (Nat.zero_le _) h.genesisRow
  cases k with
  | zero =>
    unfold Zkpow.stateFromDbAtHeight
    rw [if_pos (show UInt32.ofNat 0 = 0 from rfl), hgenesis]
    exact hg
  | succ k =>
    have hnat : (UInt32.ofNat (k + 1)).toNat = k + 1 := UInt32.toNat_ofNat_of_lt' hbound
    obtain ⟨s, hs, hheader, hwork, hheight⟩ := h.exists_resumed hg hk hbound
    have hdb : OnePer Row.height db row ((UInt32.ofNat (k + 1)).toNat + 1) :=
      h.onePer.mono (by rw [hnat]; exact Nat.succ_le_succ hk)
    have hmin : 0 + min (k + 1) (c.headers.length - 0) = k + 1 := by omega
    have happly : Zkpow.applyHeaders hashHeader g (batchHeaders c 0 (k + 1))
        (batchMedians c 0 (k + 1)) = .ok (c.stateAt hashHeader g (k + 1), .ok ()) := by
      have hfirst := h.applyHeaders hg (Nat.zero_le _) (hmin ▸ hbound)
      rwa [hmin] at hfirst
    have hwitness : Zkpow.loadHeaderBatchWitness db 1 (UInt32.ofNat (k + 1)).toNat =
        .ok ⟨batchHeaders c 0 (k + 1), batchMedians c 0 (k + 1)⟩ := by
      rw [hnat]
      exact h.loadHeaderBatchWitness (Nat.zero_le _) (k + 1)
    have hreplay := replay_spec hdb hgenesis h.genesisBits hg hwitness happly
    have hresumed := stateFromDbAtHeight_spec hdb
      (fun h0 => by rw [h0] at hnat; cases hnat) hs
    have hclaim : s.publicClaim = (c.stateAt hashHeader g (k + 1)).publicClaim := by
      rw [h.stateAt_claim hg hk hbound, State.publicClaim, hresumed.genesisHash, hwork, hheight,
        hresumed.tip.blockHash, hheader, ← hreplay.tip.blockHash, (h.inv hg hk hbound).tip]
    rw [hs, hresumed.eq hreplay hclaim hheader]

end States

end HoldsChain

end Zkpow
