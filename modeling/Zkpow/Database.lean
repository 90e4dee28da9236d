import Zkpow.Chain
import Zkpow.Lib.KeyedTable

/-!
# The header database

The host's SQLite table of headers and the states it is read into
(`crates/host/src/util/db.rs`).  SQLite stores integers and blobs; the conversions to machine
integers are the code's `as` casts, and a blob of the wrong length is a panic.

* `stateFromDbAtHeight_eq_replay` — resuming from a height gives the state that replaying every
  header up to it gives.
-/

set_option autoImplicit false

namespace Zkpow

open ByteCodec ExceptFold RingWindow KeyedTable

/-! ## Rows -/

/-- A row of the table `headers`. -/
structure Row where
  height : Int
  blockHash : Bytes
  version : Int
  prev : Bytes
  merkleRoot : Bytes
  timestamp : Int
  nBits : Int
  nonce : Int
  chainwork : Bytes
  medianTimePast : Int

abbrev Table := List Row

/-- Why reading the database panics. -/
inductive DbPanic where
  | blobLength (column : String)
  | noRow
  | genesisHashMismatch
  | invalidTarget
  deriving DecidableEq, Repr

/-- A 32-byte blob. -/
def blob32 (column : String) (b : Bytes) : Except DbPanic Bytes32 :=
  if b.length = 32 then .ok ((Codec.array 32).dec b) else .error (.blobLength column)

/-- `i64 as u64`. -/
def asU64 (x : Int) : Nat := (x % 2 ^ 64).toNat

/-- `chain_work_from_db_bytes`: the column is big-endian. -/
def chainWorkFromDbBytes (bytes : Bytes) : Except DbPanic ChainWork := do
  let raw ← blob32 "chainwork" bytes
  return U256.fromLeBytes raw.reverse

structure HeaderRecord where
  height : Nat
  header : Header
  chainWork : ChainWork
  medianTimePast : BlockTimestamp
  deriving DecidableEq, Repr

structure HeaderBatchWitness where
  headers : List NewHeader
  medianTimePastHints : List BlockTimestamp
  deriving DecidableEq, Repr

/-- The row mapping of `load_header_records`. -/
def HeaderRecord.ofRow (row : Row) : Except DbPanic HeaderRecord := do
  let prev ← blob32 "prev" row.prev
  let merkleRoot ← blob32 "merkle_root" row.merkleRoot
  let chainWork ← chainWorkFromDbBytes row.chainwork
  return {
    height := asU64 row.height
    header := ⟨UInt32.ofInt row.version, prev, merkleRoot, UInt32.ofInt row.timestamp,
      UInt32.ofInt row.nBits, UInt32.ofInt row.nonce⟩
    chainWork := chainWork
    medianTimePast := UInt32.ofInt row.medianTimePast }

/-- The row mapping of `load_header_batch_witness`. -/
def witnessOfRow (row : Row) : Except DbPanic (NewHeader × BlockTimestamp) := do
  let merkleRoot ← blob32 "merkle_root" row.merkleRoot
  return (⟨UInt32.ofInt row.version, merkleRoot, UInt32.ofInt row.timestamp,
    UInt32.ofInt row.nonce⟩, UInt32.ofInt row.medianTimePast)

/-- `HeaderRecord::public_claim`. -/
def HeaderRecord.publicClaim (hashHeader : Header → BlockHash) (record : HeaderRecord)
    (genesisHash : BlockHash) : Claim :=
  ⟨genesisHash, hashHeader record.header, record.chainWork, UInt32.ofNat record.height⟩

/-! ## Queries -/

/-- `WHERE height >= ?1 AND height < ?2 ORDER BY height ASC`. -/
def selectHeights (db : Table) (startHeight endHeight : Nat) : List Row :=
  select Row.height db startHeight endHeight

def loadPublicClaim (db : Table) (height : Nat) (genesisHash : BlockHash) :
    Except DbPanic Claim := do
  match db.find? fun row => decide (row.height = (height : Int)) with
  | none => .error .noRow
  | some row =>
    let blockHash ← blob32 "block_hash" row.blockHash
    let chainWork ← chainWorkFromDbBytes row.chainwork
    return ⟨genesisHash, blockHash, chainWork, UInt32.ofNat height⟩

def loadCompactTarget (db : Table) (height : Nat) : Except DbPanic CompactTarget :=
  match db.find? fun row => decide (row.height = (height : Int)) with
  | none => .error .noRow
  | some row => .ok (UInt32.ofInt row.nBits)

def loadHeaderRecords (db : Table) (startHeight count : Nat) :
    Except DbPanic (List HeaderRecord) :=
  (selectHeights db startHeight (startHeight + count)).mapM HeaderRecord.ofRow

def loadHeaderRecord (db : Table) (height : Nat) : Except DbPanic HeaderRecord := do
  match ← loadHeaderRecords db height 1 with
  | record :: _ => return record
  | [] => .error .noRow

def loadHeaderBatchWitness (db : Table) (startHeight count : Nat) :
    Except DbPanic HeaderBatchWitness := do
  let rows ← (selectHeights db startHeight (startHeight + count)).mapM witnessOfRow
  return ⟨rows.map Prod.fst, rows.map Prod.snd⟩

def loadNewHeaders (db : Table) (startHeight count : Nat) : Except DbPanic (List NewHeader) := do
  let witness ← loadHeaderBatchWitness db startHeight count
  return witness.headers

/-! ## States -/

section States

variable (hashHeader : Header → BlockHash)

/-- `work_from_target(..).expect(..)`. -/
def expectWork (target : Target) : Except DbPanic ChainWork :=
  match workFromTarget target with
  | .ok work => .ok work
  | .error _ => .error .invalidTarget

def zeroTimestamps : Vector BlockTimestamp WINDOW_SIZE := Vector.replicate WINDOW_SIZE 0

def genesisStateFromRecord (genesis : HeaderRecord) (genesisHash : BlockHash) :
    Except DbPanic State := do
  let blockHash := hashHeader genesis.header
  if blockHash ≠ genesisHash then .error .genesisHashMismatch
  else
    let genesisWork ← expectWork GENESIS_TARGET
    let timestamps := zeroTimestamps.set 0 genesis.header.timestamp
    return {
      header := genesis.header
      blockHash := blockHash
      genesisHash := genesisHash
      currentNbits := genesis.header.compactTarget
      height := UInt32.ofNat genesis.height
      chainWork := genesis.chainWork
      currentWork := genesisWork
      currentTarget := GENESIS_TARGET
      epochStartTimestamp := genesis.header.timestamp
      timestamps := timestamps }

/-- `timestamps[record.height as usize % WINDOW_SIZE] = record.header.timestamp`. -/
def recordTimestamp (timestamps : Vector BlockTimestamp WINDOW_SIZE) (record : HeaderRecord) :
    Vector BlockTimestamp WINDOW_SIZE :=
  timestamps.set (record.height % WINDOW_SIZE) record.header.timestamp
    (Nat.mod_lt _ (by decide))

def stateFromDbAtHeight (db : Table) (height : UInt32) (genesisHash : BlockHash) :
    Except DbPanic State := do
  if height = 0 then
    let genesis ← loadHeaderRecord db 0
    genesisStateFromRecord hashHeader genesis genesisHash
  else
    let current ← loadHeaderRecord db height.toNat
    let epochStartHeight := (height / EPOCH_LENGTH) * EPOCH_LENGTH
    let epochStartRecord ← loadHeaderRecord db epochStartHeight.toNat
    let windowCount := min (height.toNat + 1) WINDOW_SIZE
    let windowStart := height.toNat + 1 - windowCount
    let windowRecords ← loadHeaderRecords db windowStart windowCount
    let timestamps := windowRecords.foldl recordTimestamp zeroTimestamps
    let currentTarget := targetFromBits current.header.compactTarget
    let currentWork ← expectWork currentTarget
    return {
      header := current.header
      blockHash := hashHeader current.header
      genesisHash := genesisHash
      currentNbits := current.header.compactTarget
      height := height
      chainWork := current.chainWork
      currentWork := currentWork
      currentTarget := currentTarget
      epochStartTimestamp := epochStartRecord.header.timestamp
      timestamps := timestamps }

end States

/-! ## What a load returns -/

section Loads

variable {db : Table} {row : Nat → Row} {n : Nat}

/-- The timestamp column of a height. -/
def rowTimestamp (row : Nat → Row) (k : Nat) : BlockTimestamp := UInt32.ofInt (row k).timestamp

theorem asU64_natCast {k : Nat} (hk : k < 2 ^ 64) : asU64 (k : Int) = k := by
  unfold asU64
  omega

theorem ofRow_spec {r : Row} {record : HeaderRecord} (h : HeaderRecord.ofRow r = .ok record) :
    record.height = asU64 r.height ∧ record.header.timestamp = UInt32.ofInt r.timestamp := by
  unfold HeaderRecord.ofRow at h
  obtain ⟨prev, _, h⟩ := bind_ok.1 h
  obtain ⟨merkleRoot, _, h⟩ := bind_ok.1 h
  obtain ⟨chainWork, _, h⟩ := bind_ok.1 h
  rw [← Except.ok.inj h]
  exact ⟨rfl, rfl⟩

/-- A record loaded from the row of height `k`. -/
structure HeaderRecord.At (record : HeaderRecord) (row : Nat → Row) (k : Nat) : Prop where
  ofRow : HeaderRecord.ofRow (row k) = .ok record
  height : record.height = k
  timestamp : record.header.timestamp = rowTimestamp row k

theorem selectHeights_eq (hdb : OnePer Row.height db row n) {start count : Nat}
    (hle : start + count ≤ n) :
    selectHeights db start (start + count) = (List.range' start count).map row :=
  hdb.select_eq hle

/-- What a row mapping made of the rows of a range. -/
theorem mapM_row_ok {β : Type} {f : Row → Except DbPanic β} {start count : Nat} {l : List β}
    (h : ((List.range' start count).map row).mapM f = .ok l) :
    l.length = count ∧ ∀ (i : Nat) (hi : i < l.length), f (row (start + i)) = .ok l[i] := by
  rw [mapM_ok_iff, List.forall₂_map_left_iff] at h
  have hlen := h.length_eq
  rw [List.length_range'] at hlen
  refine ⟨hlen.symm, fun i hi => ?_⟩
  have hat := (List.forall₂_iff_get.1 h).2 i (by rw [List.length_range']; omega) hi
  simpa only [List.get_eq_getElem, List.getElem_range', Nat.one_mul] using hat

theorem loadHeaderRecords_spec (hdb : OnePer Row.height db row n) (hn : n ≤ 2 ^ 64)
    {start count : Nat} (hle : start + count ≤ n) {records : List HeaderRecord}
    (h : loadHeaderRecords db start count = .ok records) :
    records.length = count ∧
      ∀ (i : Nat) (hi : i < records.length), records[i].At row (start + i) := by
  rw [loadHeaderRecords, selectHeights_eq hdb hle] at h
  obtain ⟨hlen, hget⟩ := mapM_row_ok h
  refine ⟨hlen, fun i hi => ?_⟩
  obtain ⟨hheight, htime⟩ := ofRow_spec (hget i hi)
  refine ⟨hget i hi, ?_, htime⟩
  rw [hheight, hdb.key_row (by omega), asU64_natCast (by omega)]

theorem loadHeaderRecord_spec (hdb : OnePer Row.height db row n) (hn : n ≤ 2 ^ 64) {k : Nat}
    (hk : k < n) {record : HeaderRecord} (h : loadHeaderRecord db k = .ok record) :
    record.At row k := by
  unfold loadHeaderRecord at h
  obtain ⟨records, hrecords, h⟩ := bind_ok.1 h
  obtain ⟨hlen, hat⟩ := loadHeaderRecords_spec hdb hn (Nat.succ_le_of_lt hk) hrecords
  match records, hlen, hat, h with
  | [r], _, hat, h => exact Except.ok.inj h ▸ hat 0 (Nat.zero_lt_one)

theorem loadHeaderBatchWitness_spec (hdb : OnePer Row.height db row n) {start count : Nat}
    (hle : start + count ≤ n) {w : HeaderBatchWitness}
    (h : loadHeaderBatchWitness db start count = .ok w) :
    w.headers.length = count ∧ ∀ (i : Nat) (hi : i < w.headers.length),
      w.headers[i].timestamp = rowTimestamp row (start + i) := by
  unfold loadHeaderBatchWitness at h
  obtain ⟨rows, hrows, h⟩ := bind_ok.1 h
  rw [selectHeights_eq hdb hle] at hrows
  obtain ⟨hlen, hget⟩ := mapM_row_ok hrows
  rw [← Except.ok.inj h]
  refine ⟨by simp [hlen], fun i hi => ?_⟩
  have hat := hget i (by simpa using hi)
  unfold witnessOfRow at hat
  obtain ⟨merkleRoot, _, hat⟩ := bind_ok.1 hat
  rw [List.getElem_map, ← Except.ok.inj hat]
  rfl

end Loads

/-! ## The timestamp window -/

/-- Writing records into the ring: a slot holds what all records for it agree on. -/
theorem foldl_recordTimestamp {j : Nat} (hj : j < WINDOW_SIZE) {x : BlockTimestamp} :
    ∀ {records : List HeaderRecord} {ts : Vector BlockTimestamp WINDOW_SIZE},
    (∀ r ∈ records, r.height % WINDOW_SIZE = j → r.header.timestamp = x) →
    (ts[j] = x ∨ ∃ r ∈ records, r.height % WINDOW_SIZE = j) →
    (records.foldl recordTimestamp ts)[j] = x
  | [], ts, _, h => by
    rcases h with h | ⟨r, hr, _⟩
    · exact h
    · cases hr
  | r :: records, ts, hall, h => by
    rw [List.foldl_cons]
    refine foldl_recordTimestamp hj (fun r' hr' => hall r' (List.mem_cons_of_mem _ hr')) ?_
    rw [recordTimestamp, Vector.getElem_set]
    by_cases hr : r.height % WINDOW_SIZE = j
    · rw [if_pos hr]
      exact .inl (hall r (List.mem_cons_self ..) hr)
    · rw [if_neg hr]
      rcases h with h | ⟨r', hr', hslot⟩
      · exact .inl h
      · rcases List.mem_cons.1 hr' with rfl | hr'
        · exact absurd hslot hr
        · exact .inr ⟨r', hr', hslot⟩

/-- The height in the window of `h` whose slot is `j`. -/
theorem windowHeight_spec {h j : Nat} (hj : j < 11) (hjh : j ≤ h) :
    let k := h - (h - j) % 11
    k % 11 = j ∧ h + 1 - min (h + 1) 11 ≤ k ∧ k ≤ h ∧
      ∀ k', h + 1 - min (h + 1) 11 ≤ k' → k' ≤ h → k' % 11 = j → k' = k := by
  intro k
  have hk : k = h - (h - j) % 11 := rfl
  refine ⟨by omega, by omega, by omega, fun k' h1 h2 h3 => by omega⟩

/-- The window read back from the database. -/
theorem windowTimestamps_spec {row : Nat → Row} {h : Nat} {records : List HeaderRecord}
    (hlen : records.length = min (h + 1) 11)
    (hat : ∀ (i : Nat) (hi : i < records.length),
      records[i].At row (h + 1 - min (h + 1) 11 + i)) {j : Nat} (hj : j < WINDOW_SIZE) :
    (records.foldl recordTimestamp zeroTimestamps)[j] =
      if j ≤ h then rowTimestamp row (h - (h - j) % 11) else 0 := by
  have hmem : ∀ r ∈ records, ∃ k, h + 1 - min (h + 1) 11 ≤ k ∧ k ≤ h ∧ r.At row k := by
    intro r hr
    obtain ⟨i, hi, rfl⟩ := List.getElem_of_mem hr
    exact ⟨_, by omega, by omega, hat i hi⟩
  have hj' : j < 11 := hj
  split
  · rename_i hjh
    obtain ⟨hslot, hlo, hhi, huniq⟩ := windowHeight_spec hj' hjh
    refine foldl_recordTimestamp hj (fun r hr hrj => ?_) (.inr ?_)
    · obtain ⟨k, h1, h2, hat⟩ := hmem r hr
      rw [hat.timestamp, huniq k h1 h2 (by rw [← hat.height]; exact hrj)]
    · have hi : h - (h - j) % 11 - (h + 1 - min (h + 1) 11) < records.length := by omega
      have hk := (hat _ hi).height
      rw [Nat.add_sub_cancel' hlo] at hk
      exact ⟨_, List.getElem_mem hi, by rw [hk]; exact hslot⟩
  · rename_i hjh
    refine foldl_recordTimestamp hj (fun r hr hrj => ?_) (.inl ?_)
    · obtain ⟨k, h1, h2, hat⟩ := hmem r hr
      rw [hat.height] at hrj
      have : k % 11 = j := hrj
      omega
    · rw [zeroTimestamps, Vector.getElem_replicate]

/-! ## Replaying from genesis -/

section Replay

variable {hashHeader : Header → BlockHash}

/-- The tip hash and difficulty are those of the tip header. -/
structure TipHeader (hashHeader : Header → BlockHash) (s : State) : Prop where
  blockHash : s.blockHash = hashHeader s.header
  nbits : s.currentNbits = s.header.compactTarget

theorem foldlM_tipHeader {headers : List NewHeader} {s t : State} (hs : TipHeader hashHeader s)
    (h : headers.foldlM (acceptHeader hashHeader) s = .ok t) : TipHeader hashHeader t := by
  refine foldlM_inv (fun u nh u' _ hacc => ?_) hs h
  obtain ⟨_, _, rfl⟩ := acceptHeader_ok.1 hacc
  exact ⟨rfl, rfl⟩

/-- Slots above the height are not written. -/
theorem slot_unwritten : ∀ {headers : List NewHeader} {s t : State},
    headers.foldlM (acceptHeader hashHeader) s = .ok t → ∀ {j : Nat}, j < WINDOW_SIZE →
    s.height.toNat + headers.length < j → t.slot j = s.slot j := by
  intro headers
  induction headers with
  | nil =>
    intro s t h j _ _
    rw [foldlM_nil_ok] at h
    rw [h]
  | cons nh headers ih =>
    intro s t h j hj hlt
    obtain ⟨s', hacc, hrest⟩ := foldlM_cons_ok.1 h
    obtain ⟨_, _, rfl⟩ := acceptHeader_ok.1 hacc
    have hj' : j < 11 := hj
    rw [List.length_cons] at hlt
    have hsucc : (s.height + 1).toNat = s.height.toNat + 1 := toNat_add_one (by omega)
    have hheight : (s.extend hashHeader nh).height.toNat = s.height.toNat + 1 := hsucc
    rw [ih hrest hj (by rw [hheight]; omega), slot_extend _ _ _ hj, hsucc,
      Nat.mod_eq_of_lt (by rw [WINDOW_SIZE_eq]; omega), if_neg (by omega)]

/-- The genesis state of a mainnet genesis record. -/
structure GenesisState (hashHeader : Header → BlockHash) (genesis : HeaderRecord) (s : State) :
    Prop where
  isGenesis : s.IsGenesis
  tip : TipHeader hashHeader s
  consistent : s.Consistent
  epochStart : s.epochStartTimestamp = genesis.header.timestamp
  slots : ∀ j, 0 < j → j < WINDOW_SIZE → s.slot j = 0

theorem expectWork_ok {target : Target} {work : ChainWork} :
    expectWork target = .ok work ↔ workFromTarget target = .ok work := by
  unfold expectWork
  cases workFromTarget target <;> simp

/-- What the genesis state has of its record. -/
theorem genesisStateFromRecord_ok {genesis : HeaderRecord} {genesisHash : BlockHash} {s : State} :
    genesisStateFromRecord hashHeader genesis genesisHash = .ok s ↔
      hashHeader genesis.header = genesisHash ∧
        ∃ genesisWork, workFromTarget GENESIS_TARGET = .ok genesisWork ∧
          s = {
            header := genesis.header
            blockHash := genesisHash
            genesisHash := genesisHash
            currentNbits := genesis.header.compactTarget
            height := UInt32.ofNat genesis.height
            chainWork := genesis.chainWork
            currentWork := genesisWork
            currentTarget := GENESIS_TARGET
            epochStartTimestamp := genesis.header.timestamp
            timestamps := zeroTimestamps.set 0 genesis.header.timestamp } := by
  unfold genesisStateFromRecord
  constructor
  · intro h
    simp only at h
    split at h
    · cases h
    · rename_i hhash
      obtain ⟨genesisWork, hwork, h⟩ := bind_ok.1 h
      refine ⟨not_not.1 hhash, genesisWork, expectWork_ok.1 hwork, ?_⟩
      rw [← Except.ok.inj h, not_not.1 hhash]
  · rintro ⟨hhash, genesisWork, hwork, rfl⟩
    simp only
    rw [if_neg (not_not.2 hhash), expectWork_ok.2 hwork, hhash]
    rfl

theorem genesisStateFromRecord_spec {genesis : HeaderRecord} {genesisHash : BlockHash} {s : State}
    (hheight : genesis.height = 0) (hbits : genesis.header.compactTarget = GENESIS_NBITS)
    (h : genesisStateFromRecord hashHeader genesis genesisHash = .ok s) :
    GenesisState hashHeader genesis s := by
  obtain ⟨hhash, genesisWork, hwork, rfl⟩ := genesisStateFromRecord_ok.1 h
  refine ⟨⟨?_, ?_, hbits, rfl, hwork⟩, ⟨hhash.symm, rfl⟩,
    ⟨?_, hwork, U256.le_iff.2 (Nat.le_refl _)⟩, rfl, ?_⟩
  · rw [hheight]; rfl
  · exact Vector.getElem_set_self _
  · show GENESIS_TARGET = targetFromBits genesis.header.compactTarget
    rw [hbits]
    decide +kernel
  · intro j hpos hj
    rw [slot_eq_getElem _ hj]
    simp only
    rw [Vector.getElem_set_ne _ _ (by omega), zeroTimestamps, Vector.getElem_replicate]

end Replay

/-! ## Resuming -/

section Resume

variable {hashHeader : Header → BlockHash} {db : Table} {row : Nat → Row}

/-- What a state of height `h` has of the rows up to `h`, beside its header. -/
structure ResumedState (hashHeader : Header → BlockHash) (row : Nat → Row) (h : Nat)
    (genesisHash : BlockHash) (s : State) : Prop where
  tip : TipHeader hashHeader s
  genesisHash : s.genesisHash = genesisHash
  target : s.currentTarget = targetFromBits s.currentNbits
  work : workFromTarget s.currentTarget = .ok s.currentWork
  epochStart : s.epochStartTimestamp = rowTimestamp row (h / 2016 * 2016)
  slots : ∀ j, j < WINDOW_SIZE →
    s.slot j = if j ≤ h then rowTimestamp row (h - (h - j) % 11) else 0

theorem stateFromDbAtHeight_spec {height : UInt32}
    (hdb : OnePer Row.height db row (height.toNat + 1)) {genesisHash : BlockHash} {s : State}
    (h0 : height ≠ 0) (h : stateFromDbAtHeight hashHeader db height genesisHash = .ok s) :
    ResumedState hashHeader row height.toNat genesisHash s := by
  have hn : height.toNat + 1 ≤ 2 ^ 64 := by
    have := height.toNat_lt
    omega
  have hepoch : ((height / EPOCH_LENGTH) * EPOCH_LENGTH).toNat =
      height.toNat / 2016 * 2016 := by
    have := height.toNat_lt
    rw [UInt32.toNat_mul, UInt32.toNat_div, show EPOCH_LENGTH.toNat = 2016 from rfl,
      Nat.mod_eq_of_lt (by omega)]
  unfold stateFromDbAtHeight at h
  rw [if_neg h0] at h
  obtain ⟨current, hcurrent, h⟩ := bind_ok.1 h
  obtain ⟨epochStart, hepochStart, h⟩ := bind_ok.1 h
  obtain ⟨records, hrecords, h⟩ := bind_ok.1 h
  obtain ⟨work, hwork, h⟩ := bind_ok.1 h
  rw [hepoch] at hepochStart
  have hstart := loadHeaderRecord_spec hdb hn (by omega) hepochStart
  obtain ⟨hlen, hat⟩ := loadHeaderRecords_spec hdb hn (by rw [WINDOW_SIZE_eq]; omega) hrecords
  rw [← Except.ok.inj h]
  refine ⟨⟨rfl, rfl⟩, rfl, rfl, expectWork_ok.1 hwork, hstart.timestamp, fun j hj => ?_⟩
  rw [slot_eq_getElem _ hj]
  exact windowTimestamps_spec hlen hat hj

/-- A record loaded for a height is of that height, whatever the table holds. -/
theorem loadHeaderRecord_height {db : Table} {k : Nat} (hk : k < 2 ^ 64) {record : HeaderRecord}
    (h : loadHeaderRecord db k = .ok record) : record.height = k := by
  unfold loadHeaderRecord at h
  obtain ⟨records, hrecords, h⟩ := bind_ok.1 h
  cases records with
  | nil => cases h
  | cons r rest =>
    rw [← Except.ok.inj h]
    have hrows := mapM_ok_iff.1 hrecords
    obtain ⟨row, rows, hrow, -, hselect⟩ := List.forall₂_cons_right_iff.1 hrows
    have hmem : row ∈ select Row.height db k (k + 1 : Nat) := by
      rw [show select Row.height db k (k + 1 : Nat) = _ from hselect]
      exact List.mem_cons_self
    obtain ⟨-, hlo, hhi⟩ := mem_select.1 hmem
    rw [(ofRow_spec hrow).1, show row.height = (k : Int) by omega, asU64_natCast hk]

/-- The state of a height has that height. -/
theorem stateFromDbAtHeight_height {db : Table} {height : UInt32} {genesisHash : BlockHash}
    {s : State} (h : stateFromDbAtHeight hashHeader db height genesisHash = .ok s) :
    s.height = height := by
  unfold stateFromDbAtHeight at h
  split at h
  · rename_i h0
    obtain ⟨genesis, hgenesis, h⟩ := bind_ok.1 h
    have hheight := loadHeaderRecord_height (by decide) hgenesis
    unfold genesisStateFromRecord at h
    simp only at h
    split at h
    · cases h
    obtain ⟨work, -, h⟩ := bind_ok.1 h
    rw [← Except.ok.inj h, h0]
    show UInt32.ofNat genesis.height = 0
    rw [hheight]
    rfl
  · obtain ⟨current, -, h⟩ := bind_ok.1 h
    obtain ⟨epochStart, -, h⟩ := bind_ok.1 h
    obtain ⟨records, -, h⟩ := bind_ok.1 h
    obtain ⟨work, -, h⟩ := bind_ok.1 h
    rw [← Except.ok.inj h]

/-- What replaying the rows from genesis leads to. -/
theorem replay_spec {height : UInt32} (hdb : OnePer Row.height db row (height.toNat + 1))
    {genesis : HeaderRecord} {genesisHash : BlockHash} {g r : State} {w : HeaderBatchWitness}
    (hgenesis : loadHeaderRecord db 0 = .ok genesis)
    (hbits : genesis.header.compactTarget = GENESIS_NBITS)
    (hg : genesisStateFromRecord hashHeader genesis genesisHash = .ok g)
    (hw : loadHeaderBatchWitness db 1 height.toNat = .ok w)
    (hr : applyHeaders hashHeader g w.headers w.medianTimePastHints = .ok (r, .ok ())) :
    ResumedState hashHeader row height.toNat r.genesisHash r := by
  have hbound := height.toNat_lt
  have hat0 := loadHeaderRecord_spec hdb (by omega) (Nat.succ_pos _) hgenesis
  have hgs := genesisStateFromRecord_spec hat0.height hbits hg
  obtain ⟨hlen, htimes⟩ := loadHeaderBatchWitness_spec hdb (by omega) hw
  obtain ⟨_, hrun⟩ := applyHeaders_ok.1 hr
  have hcons := foldlM_consistent hgs.consistent hrun
  have hstart : ChainInv hashHeader (g.chain w.headers) g.chainWork.toNat 0 g :=
    ChainInv.start hgs.isGenesis w.headers
  have hinv := hstart.run
    (i := w.headers.length) (Nat.le_refl _) (by omega)
    (by rw [show (g.chain w.headers).headers = w.headers from rfl, List.take_length]; exact hrun)
  -- block `k` of the chain is row `k`
  have hblock : ∀ k, k ≤ height.toNat →
      (g.chain w.headers).timestampAt k = rowTimestamp row k := by
    intro k hk
    cases k with
    | zero => exact hgs.epochStart.trans hat0.timestamp
    | succ k =>
      have hk' : k < w.headers.length := by omega
      rw [Chain.timestampAt_succ (c := g.chain w.headers) hk']
      exact (htimes k hk').trans (congrArg _ (Nat.add_comm 1 k))
  refine ⟨foldlM_tipHeader hgs.tip hrun, rfl, hcons.target, hcons.work, ?_, fun j hj => ?_⟩
  · rw [hinv.epochStart, hlen, hblock _ (by omega)]
  · have hj' : j < 11 := hj
    split
    · rename_i hjh
      obtain ⟨hslot, hlo, hhi, _⟩ := windowHeight_spec hj' hjh
      have hlt : height.toNat - (height.toNat - j) % 11 <
          ((g.chain w.headers).timestamps.take (w.headers.length + 1)).length := by
        rw [List.length_take, Chain.length_timestamps]
        show _ < min _ (w.headers.length + 1)
        omega
      have hring := hinv.ring.slot_eq hlt (by
        rw [List.length_take, Chain.length_timestamps, WINDOW_SIZE_eq]
        show min _ (w.headers.length + 1) ≤ _
        omega)
      rw [List.getElem_take, Chain.timestamps_getElem, hblock _ hhi, WINDOW_SIZE_eq, hslot]
        at hring
      exact hring
    · rename_i hjh
      rw [slot_unwritten hrun hj (by rw [hgs.isGenesis.height, hlen]; show 0 + _ < _; omega)]
      exact hgs.slots j (by omega) hj

/-- The rows determine a state up to its claim and its header. -/
theorem ResumedState.eq {h : Nat} {genesisHash genesisHash' : BlockHash} {s r : State}
    (hs : ResumedState hashHeader row h genesisHash s)
    (hr : ResumedState hashHeader row h genesisHash' r) (hclaim : s.publicClaim = r.publicClaim)
    (hheader : s.header = r.header) : s = r := by
  have hnbits : s.currentNbits = r.currentNbits := by rw [hs.tip.nbits, hr.tip.nbits, hheader]
  have htarget : s.currentTarget = r.currentTarget := by rw [hs.target, hr.target, hnbits]
  have hwork : s.currentWork = r.currentWork := by
    have h := hs.work
    rw [htarget, hr.work] at h
    exact (Except.ok.inj h).symm
  have htimes : s.timestamps = r.timestamps := Vector.ext fun j hj => by
    rw [← slot_eq_getElem s hj, ← slot_eq_getElem r hj, hs.slots j hj, hr.slots j hj]
  have hcont : ContinuationData.fromState s = ContinuationData.fromState r := by
    unfold ContinuationData.fromState
    rw [hnbits, hwork, htarget, hs.epochStart, hr.epochStart, htimes]
  rw [State.eq_of_claim_continuation hclaim hcont, hheader]

/-- **Resuming from the database equals replaying the chain.**  Over a table with one row for
every height up to `height`, if replaying rows `1 … height` from the genesis state succeeds and
the resumed state has the claim of the replayed one, the two are equal in every field. -/
theorem stateFromDbAtHeight_eq_replay {height : UInt32}
    (hdb : OnePer Row.height db row (height.toNat + 1)) {genesis : HeaderRecord}
    {genesisHash : BlockHash} {g r s : State} {w : HeaderBatchWitness}
    (hgenesis : loadHeaderRecord db 0 = .ok genesis)
    (hbits : genesis.header.compactTarget = GENESIS_NBITS)
    (hg : genesisStateFromRecord hashHeader genesis genesisHash = .ok g)
    (hw : loadHeaderBatchWitness db 1 height.toNat = .ok w)
    (hr : applyHeaders hashHeader g w.headers w.medianTimePastHints = .ok (r, .ok ()))
    (hs : stateFromDbAtHeight hashHeader db height genesisHash = .ok s)
    (hclaim : s.publicClaim = r.publicClaim)
    (hinj : Set.InjOn hashHeader {s.header, r.header}) : s = r := by
  by_cases h0 : height = 0
  -- at genesis nothing is replayed
  · subst h0
    obtain ⟨hlen, _⟩ := loadHeaderBatchWitness_spec hdb (by decide) hw
    have hnil : w.headers = [] := List.eq_nil_of_length_eq_zero hlen
    obtain ⟨_, hrun⟩ := applyHeaders_ok.1 hr
    rw [hnil, foldlM_nil_ok] at hrun
    unfold stateFromDbAtHeight at hs
    rw [if_pos rfl, hgenesis] at hs
    exact Except.ok.inj (hs.symm.trans (hg.trans (congrArg _ hrun)))
  · have hdbState := stateFromDbAtHeight_spec hdb h0 hs
    have hreplay := replay_spec hdb hgenesis hbits hg hw hr
    have hhash : s.blockHash = r.blockHash := congrArg Claim.tipHash hclaim
    rw [hdbState.tip.blockHash, hreplay.tip.blockHash] at hhash
    exact hdbState.eq hreplay hclaim (hinj (by simp) (by simp) hhash)

end Resume

/-! ## A table of two rows -/

section Example

def exampleRow : Nat → Row
  | 0 => ⟨0, List.replicate 32 0, 1, List.replicate 32 0, List.replicate 32 0, 0, 0x1d00ffff, 0,
      List.replicate 32 0, 0⟩
  | k => ⟨k, List.replicate 32 0, 1, List.replicate 32 0, List.replicate 32 0, k, 0x1d00ffff, 0,
      List.replicate 27 0 ++ [1, 0, 1, 0, 1], 0⟩

def exampleTable : Table := [exampleRow 1, exampleRow 0]

def exampleRecord (height : Nat) (chainWork : ChainWork) : HeaderRecord :=
  ⟨height, ⟨1, Vector.replicate 32 0, Vector.replicate 32 0, UInt32.ofNat height, 0x1d00ffff, 0⟩,
    chainWork, 0⟩

def exampleState (height : UInt32) (chainWork : ChainWork) : State where
  header := ⟨1, Vector.replicate 32 0, Vector.replicate 32 0, height, 0x1d00ffff, 0⟩
  blockHash := Vector.replicate 32 0
  genesisHash := Vector.replicate 32 0
  currentNbits := 0x1d00ffff
  height := height
  chainWork := chainWork
  currentWork := testState.currentWork
  currentTarget := GENESIS_TARGET
  epochStartTimestamp := 0
  timestamps := zeroTimestamps.set 1 height

theorem exampleTable_onePer : OnePer Row.height exampleTable exampleRow 2 := by
  intro k hk
  interval_cases k <;> rfl

theorem stateFromDbAtHeight_exampleTable :
    stateFromDbAtHeight zeroHash exampleTable 1 (Vector.replicate 32 0) =
      .ok (exampleState 1 ⟨#v[0x100010001, 0, 0, 0]⟩) := by
  have hcurrent : loadHeaderRecord exampleTable (1 : UInt32).toNat =
      .ok (exampleRecord 1 ⟨#v[0x100010001, 0, 0, 0]⟩) := by decide +kernel
  have hepoch : loadHeaderRecord exampleTable (1 / EPOCH_LENGTH * EPOCH_LENGTH).toNat =
      .ok (exampleRecord 0 U256.ZERO) := by decide +kernel
  have hwindow : loadHeaderRecords exampleTable 0 2 =
      .ok [exampleRecord 0 U256.ZERO, exampleRecord 1 ⟨#v[0x100010001, 0, 0, 0]⟩] := by
    rw [loadHeaderRecords, selectHeights_eq exampleTable_onePer (by decide)]
    decide +kernel
  unfold stateFromDbAtHeight
  rw [if_neg (by decide)]
  refine bind_ok.2 ⟨_, hcurrent, bind_ok.2 ⟨_, hepoch, bind_ok.2 ⟨_, hwindow, ?_⟩⟩⟩
  decide +kernel

/-- Resuming at height one. -/
theorem stateFromDbAtHeight_eq_replay_example :
    exampleState 1 ⟨#v[0x100010001, 0, 0, 0]⟩ =
      (exampleState 0 U256.ZERO).extend zeroHash (headerAt 1) := by
  have hheader : (exampleState 1 ⟨#v[0x100010001, 0, 0, 0]⟩).header =
      ((exampleState 0 U256.ZERO).extend zeroHash (headerAt 1)).header := by decide +kernel
  have hgenesis : loadHeaderRecord exampleTable 0 = .ok (exampleRecord 0 U256.ZERO) := by
    decide +kernel
  refine stateFromDbAtHeight_eq_replay (w := ⟨[headerAt 1], [0]⟩) (g := exampleState 0 U256.ZERO)
    exampleTable_onePer hgenesis rfl (by decide +kernel) (by decide +kernel) (by decide +kernel)
    stateFromDbAtHeight_exampleTable (by decide +kernel) ?_
  rw [hheader, Set.pair_eq_singleton]
  exact Set.injOn_singleton _ _

end Example

end Zkpow
