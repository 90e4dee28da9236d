import Mathlib.Tactic
import Zkpow.Lib.ExceptFold
import Zkpow.Lib.Transactions
import Zkpow.RelayHistory

/-!
# The relay's event log

A relay emits `HeaderAccepted` with every accepted submission.  Its storage and its log are two
functions of one ledger: the accepted records, with the bytes of their proofs, in their order.

* `after_ledger` — the ledger of every history;
* `log_mirrors` — whoever reads the log from any moment on knows what the relay returns since;
* `after_eq_of_accepted` — the set of what was accepted determines the ledger.
-/

set_option autoImplicit false

namespace Zkpow.Relay

open ByteCodec ExceptFold

/-- The events of a new relay after a sequence of calls. -/
def eventLog (keccak256 : Bytes → Bytes32) (self : BitcoinHeaderRelay)
    (calls : List SubmitCall) : List HeaderAccepted :=
  (Transactions.runEmit (self.submit keccak256) .initial calls).2

/-! ## The ledger -/

/-- What an accepted call adds: its record, and the bytes of its proof. -/
abbrev LedgerEntry := HeaderRecord × Bytes

/-- The entry a call carries. -/
def decodedEntry (call : SubmitCall) : Except Revert LedgerEntry :=
  (decodedRecord call).map fun record => (record, call.proofBytes.bytes)

/-- The event of a record. -/
def HeaderAccepted.ofRecord (slot : Uint256) (record : HeaderRecord) (proofHash : Bytes32) :
    HeaderAccepted where
  slot := slot
  height := record.height
  currentBlockHash := record.currentBlockHash
  prevBlockHash := record.prevBlockHash
  genesisBlockHash := record.genesisBlockHash
  cumulativeChainWork := record.cumulativeChainWork
  proofHash := proofHash

section

variable (keccak256 : Bytes → Bytes32) (relay : BitcoinHeaderRelay)

/-- The storage with one more entry. -/
def RelayStorage.put (st : RelayStorage) (entry : LedgerEntry) : RelayStorage where
  acceptedCount := st.acceptedCount + 1
  hasTip := true
  latestProofHash := keccak256 entry.2
  latestTip := entry.1
  recentHeaders :=
    Function.update st.recentHeaders (st.acceptedCount % relay.RECENT_HEADER_CAPACITY) entry.1

def storageOf (ledger : List LedgerEntry) : RelayStorage :=
  ledger.foldl (RelayStorage.put keccak256 relay) .initial

/-- The event of an entry with its number. -/
def eventOf (i : Nat) (entry : LedgerEntry) : HeaderAccepted :=
  .ofRecord (BitVec.ofNat 256 (i % relay.RECENT_HEADER_CAPACITY.toNat)) entry.1 (keccak256 entry.2)

def logOf (ledger : List LedgerEntry) : List HeaderAccepted :=
  ledger.mapIdx (eventOf keccak256 relay)

/-- The storage and the log of a relay that has accepted the entries of a ledger. -/
structure LedgerInv (st : RelayStorage) (history : List SubmitCall)
    (events : List HeaderAccepted) (ledger : List LedgerEntry) : Prop where
  entries : history.mapM decodedEntry = .ok ledger
  storage : st = storageOf keccak256 relay ledger
  log : events = logOf keccak256 relay ledger
  history : HistoryInv relay st (ledger.map Prod.fst)

end

variable {keccak256 : Bytes → Bytes32} {self : BitcoinHeaderRelay} {st : RelayStorage}

theorem decodedEntry_ok {call : SubmitCall} {entry : LedgerEntry} :
    decodedEntry call = .ok entry ↔ ∃ summary : PublicValuesV1,
      call.publicValues.bytes = summary.packed ∧
        entry = (HeaderRecord.ofSummary summary, call.proofBytes.bytes) := by
  unfold decodedEntry decodedRecord
  constructor
  · intro h
    obtain ⟨record, hrecord, rfl⟩ := map_ok.1 h
    obtain ⟨summary, hsummary, rfl⟩ := map_ok.1 hrecord
    exact ⟨summary, decodePublicValues_ok.1 hsummary, rfl⟩
  · rintro ⟨summary, hbytes, rfl⟩
    rw [decodePublicValues_ok.2 hbytes]
    rfl

/-- The event of an accepted call is about the record that the call stores. -/
theorem submit_event {call : SubmitCall} {st' : RelayStorage} {event : HeaderAccepted}
    (h : self.submit keccak256 st call = .ok (st', event)) :
    event = .ofRecord (st.acceptedCount % self.RECENT_HEADER_CAPACITY) st'.latestTip
      st'.latestProofHash := by
  have hmod : checkedMod st.acceptedCount self.RECENT_HEADER_CAPACITY =
      .ok (st.acceptedCount % self.RECENT_HEADER_CAPACITY) :=
    if_neg (Nat.ne_of_gt self.capacity_pos)
  unfold BitcoinHeaderRelay.submit at h
  obtain ⟨_, -, h⟩ := bind_ok.1 h
  obtain ⟨summary, -, h⟩ := bind_ok.1 h
  obtain ⟨_, -, h⟩ := bind_ok.1 h
  rw [hmod] at h
  obtain ⟨_, hslot, h⟩ := bind_ok.1 h
  obtain ⟨_, -, h⟩ := bind_ok.1 h
  obtain ⟨rfl, rfl⟩ := Prod.mk.inj (Except.ok.inj h)
  rw [← Except.ok.inj hslot]
  rfl

/-- **An accepted call adds one entry.** -/
theorem LedgerInv.step {history : List SubmitCall} {events : List HeaderAccepted}
    {ledger : List LedgerEntry} (hinv : LedgerInv keccak256 self st history events ledger)
    {call : SubmitCall} {st' : RelayStorage} {event : HeaderAccepted}
    (h : self.submit keccak256 st call = .ok (st', event)) :
    ∃ entry, LedgerInv keccak256 self st' (history ++ [call]) (events ++ [event])
      (ledger ++ [entry]) := by
  obtain ⟨-, summary, hbytes, hvalid, hst⟩ :=
    (BitcoinHeaderRelay.submit_ok hinv.history.count_lt).1 ⟨event, h⟩
  have hevent := submit_event h
  refine ⟨(HeaderRecord.ofSummary summary, call.proofBytes.bytes), ?_, ?_, ?_, ?_⟩
  · have hentry := decodedEntry_ok.2 ⟨summary, hbytes, rfl⟩
    rw [List.mapM_append, hinv.entries]
    simp [hentry]
    rfl
  · rw [hst, storageOf, List.foldl_append, ← storageOf, ← hinv.storage]
    rfl
  · have hslot : st.acceptedCount % self.RECENT_HEADER_CAPACITY =
        BitVec.ofNat 256 (ledger.length % self.RECENT_HEADER_CAPACITY.toNat) := by
      have hcount := hinv.history.count
      rw [List.length_map] at hcount
      rw [← hcount, ← BitVec.toNat_umod, BitVec.ofNat_toNat, BitVec.setWidth_eq]
    rw [hinv.log, hevent, hslot, logOf, logOf, List.mapIdx_concat, hst]
    rfl
  · rw [hst, List.map_append]
    exact hinv.history.stored call hvalid

/-- **The ledger of every history.** -/
theorem after_ledger (keccak256 : Bytes → Bytes32) (self : BitcoinHeaderRelay)
    (calls : List SubmitCall) : ∃ ledger,
      LedgerInv keccak256 self (after keccak256 self calls) (accepted keccak256 self calls)
        (eventLog keccak256 self calls) ledger := by
  refine (Transactions.runEmit_inv (fun st history events => ∃ ledger,
    LedgerInv keccak256 self st history events ledger) ⟨[], rfl, rfl, rfl, .initial self⟩ ?_
    calls).2
  rintro st history events call st' event ⟨ledger, hinv⟩ h
  obtain ⟨entry, hnext⟩ := hinv.step h
  exact ⟨ledger ++ [entry], hnext⟩

/-- Later calls extend the ledger. -/
theorem after_append_ledger (keccak256 : Bytes → Bytes32) (self : BitcoinHeaderRelay)
    (before since : List SubmitCall) : ∃ ledger new,
      LedgerInv keccak256 self (after keccak256 self before) (accepted keccak256 self before)
        (eventLog keccak256 self before) ledger ∧
      LedgerInv keccak256 self (after keccak256 self (before ++ since))
        (accepted keccak256 self (before ++ since)) (eventLog keccak256 self (before ++ since))
        (ledger ++ new) := by
  obtain ⟨ledger, hledger⟩ := after_ledger keccak256 self before
  obtain ⟨whole, hwhole⟩ := after_ledger keccak256 self (before ++ since)
  have hentries := hwhole.entries
  rw [accepted, Transactions.run_append] at hentries
  obtain ⟨first, new, rfl, hfirst, -⟩ := mapM_append_ok hentries
  obtain rfl : ledger = first := Except.ok.inj (hledger.entries.symm.trans hfirst)
  exact ⟨ledger, new, hledger, hwhole⟩

/-! ## Readers of the log -/

/-- An event that may follow a block. -/
structure HeaderAccepted.Follows (next : HeaderAccepted) (hash : Bytes32) (height : UInt32)
    (work : Uint256) : Prop where
  linked : next.prevBlockHash = hash
  height : height < next.height
  work : work < next.cumulativeChainWork

/-- The event is about the record. -/
def HeaderRecord.Logged (record : HeaderRecord) (event : HeaderAccepted) : Prop :=
  event = .ofRecord event.slot record event.proofHash

/-- What the events since some moment tell of a relay: `base` is its storage at that moment, and
`st` its storage now. -/
structure LogMirror (relay : BitcoinHeaderRelay) (base st : RelayStorage)
    (seen : List HeaderAccepted) : Prop where
  acceptedCount : st.acceptedCount.toNat = base.acceptedCount.toNat + seen.length
  idle : seen = [] → st = base
  slots : ∀ i (_ : i < seen.length), seen[i].slot.toNat =
    (base.acceptedCount.toNat + i) % relay.RECENT_HEADER_CAPACITY.toNat
  genesisBlockHash : ∀ e ∈ seen, e.genesisBlockHash = relay.GENESIS_BLOCK_HASH
  joined : ∀ tip, base.tip = some tip → ∀ _ : 0 < seen.length,
    seen[0].Follows tip.currentBlockHash tip.height tip.cumulativeChainWork
  linked : ∀ i (_ : i + 1 < seen.length),
    seen[i + 1].Follows seen[i].currentBlockHash seen[i].height seen[i].cumulativeChainWork
  latestTip : ∀ _ : 0 < seen.length, ∃ tip, st.tip = some tip ∧
    tip.Logged seen[seen.length - 1] ∧ st.latestProofHash = seen[seen.length - 1].proofHash
  byOffset : ∀ (k : Uint256)
    (_ : k.toNat < min seen.length relay.RECENT_HEADER_CAPACITY.toNat),
    ∃ record, relay.getHeaderByOffset st k = .ok record ∧
      record.Logged seen[seen.length - 1 - k.toNat]
  bySlot : ∀ s : Uint256, s.toNat < relay.RECENT_HEADER_CAPACITY.toNat →
    ∃ record, relay.getHeader st s = .ok record ∧
      match seen.reverse.find? fun e => e.slot = s with
      | some e => record.Logged e
      | none => relay.getHeader base s = .ok record

section Readers

variable {ledger new : List LedgerEntry}

/-- The events of the new entries. -/
def newLog (keccak256 : Bytes → Bytes32) (relay : BitcoinHeaderRelay)
    (ledger new : List LedgerEntry) : List HeaderAccepted :=
  new.mapIdx fun i => eventOf keccak256 relay (ledger.length + i)

theorem logOf_append : logOf keccak256 self (ledger ++ new) =
    logOf keccak256 self ledger ++ newLog keccak256 self ledger new := by
  unfold logOf newLog
  rw [List.mapIdx_append]
  simp only [Nat.add_comm]

theorem length_newLog : (newLog keccak256 self ledger new).length = new.length :=
  List.length_mapIdx

theorem getElem_newLog {i : Nat} (hi : i < (newLog keccak256 self ledger new).length)
    (hi' : ledger.length + i < (ledger ++ new).length) :
    (newLog keccak256 self ledger new)[i] =
      eventOf keccak256 self (ledger.length + i) (ledger ++ new)[ledger.length + i] := by
  rw [List.getElem_append_right (Nat.le_add_right _ _)]
  simp only [newLog, List.getElem_mapIdx, Nat.add_sub_cancel_left]

theorem logged_eventOf (i : Nat) (entry : LedgerEntry) :
    entry.1.Logged (eventOf keccak256 self i entry) := rfl

theorem toNat_slot_eventOf (i : Nat) (entry : LedgerEntry) :
    (eventOf keccak256 self i entry).slot.toNat = i % self.RECENT_HEADER_CAPACITY.toNat := by
  have hmod := Nat.mod_lt i self.capacity_pos
  have hcapacity := self.RECENT_HEADER_CAPACITY.isLt
  exact (BitVec.toNat_ofNat _ _).trans (Nat.mod_eq_of_lt (by omega))

theorem storageOf_concat (entry : LedgerEntry) : storageOf keccak256 self (ledger ++ [entry]) =
    (storageOf keccak256 self ledger).put keccak256 self entry := by
  rw [storageOf, List.foldl_append]
  rfl

theorem latestProofHash_storageOf (hpos : 0 < ledger.length) :
    (storageOf keccak256 self ledger).latestProofHash =
      keccak256 ledger[ledger.length - 1].2 := by
  induction ledger using List.reverseRecOn with
  | nil => exact absurd hpos (Nat.lt_irrefl 0)
  | append_singleton ledger entry _ =>
    rw [storageOf_concat]
    simp [RelayStorage.put]

/-- A slot after some more entries: that of the last event with it. -/
theorem recentHeaders_append (s : Uint256)
    (hlen : (ledger ++ new).length < 2 ^ 256)
    (hcount : (storageOf keccak256 self ledger).acceptedCount.toNat = ledger.length) :
    (storageOf keccak256 self (ledger ++ new)).acceptedCount.toNat = (ledger ++ new).length ∧
      match (newLog keccak256 self ledger new).reverse.find? fun e => e.slot = s with
      | some e => ((storageOf keccak256 self (ledger ++ new)).recentHeaders s).Logged e
      | none => (storageOf keccak256 self (ledger ++ new)).recentHeaders s =
          (storageOf keccak256 self ledger).recentHeaders s := by
  induction new using List.reverseRecOn with
  | nil => simpa [newLog] using hcount
  | append_singleton new entry ih =>
    rw [← List.append_assoc, List.length_append, List.length_singleton] at hlen
    obtain ⟨hcount', hslot⟩ := ih (by omega)
    have hput : storageOf keccak256 self (ledger ++ (new ++ [entry])) =
        (storageOf keccak256 self (ledger ++ new)).put keccak256 self entry := by
      rw [← List.append_assoc, storageOf, List.foldl_append]
      rfl
    have hlog : newLog keccak256 self ledger (new ++ [entry]) =
        newLog keccak256 self ledger new ++
          [eventOf keccak256 self (ledger ++ new).length entry] := by
      rw [newLog, List.mapIdx_concat, List.length_append]
      rfl
    have hevent : (eventOf keccak256 self (ledger ++ new).length entry).slot =
        (storageOf keccak256 self (ledger ++ new)).acceptedCount %
          self.RECENT_HEADER_CAPACITY := by
      apply BitVec.eq_of_toNat_eq
      rw [toNat_slot_eventOf, BitVec.toNat_umod, hcount']
    refine ⟨?_, ?_⟩
    · rw [hput, ← List.append_assoc, List.length_append, ← hcount']
      exact (BitVec.toNat_add _ _).trans (Nat.mod_eq_of_lt (by rw [hcount']; exact hlen))
    · rw [hput, hlog, List.reverse_concat, List.find?_cons, hevent]
      by_cases hs : (storageOf keccak256 self (ledger ++ new)).acceptedCount %
          self.RECENT_HEADER_CAPACITY = s
      · have hnew : ((storageOf keccak256 self (ledger ++ new)).put keccak256 self
            entry).recentHeaders s = entry.1 := by
          rw [← hs]
          exact Function.update_self _ _ _
        rw [decide_eq_true hs, hnew]
        exact logged_eventOf _ _
      · rw [decide_eq_false hs]
        have hold : ((storageOf keccak256 self (ledger ++ new)).put keccak256 self
            entry).recentHeaders s = (storageOf keccak256 self (ledger ++ new)).recentHeaders s :=
          Function.update_of_ne (Ne.symm hs) _ _
        rw [hold]
        exact hslot

variable {st₀ : RelayStorage} {history₀ history : List SubmitCall}
  {events₀ events : List HeaderAccepted}

/-- Neighbours in the ledger have events that follow each other. -/
theorem LedgerInv.follows (h : LedgerInv keccak256 self st history events ledger) {i : Nat}
    (hi : i + 1 < ledger.length) (k : Nat) :
    (eventOf keccak256 self k ledger[i + 1]).Follows ledger[i].1.currentBlockHash
      ledger[i].1.height ledger[i].1.cumulativeChainWork := by
  have hlinked := h.history.chain.linked i (by rwa [List.length_map])
  rw [List.getElem_map, List.getElem_map] at hlinked
  exact ⟨hlinked.linked, hlinked.height, hlinked.work⟩

/-- **The log since a moment mirrors the relay.** -/
theorem LedgerInv.mirror (hbase : LedgerInv keccak256 self st₀ history₀ events₀ ledger)
    (hnow : LedgerInv keccak256 self st history events (ledger ++ new)) :
    LogMirror self st₀ st (newLog keccak256 self ledger new) := by
  have hcount := hbase.history.count
  have hcount' := hnow.history.count
  rw [List.length_map] at hcount hcount'
  have hlen : (newLog keccak256 self ledger new).length = new.length := length_newLog
  have htotal : (ledger ++ new).length = ledger.length + new.length := List.length_append
  have hwindow := hnow.history.window
  refine ⟨?acceptedCount, ?idle, ?slots, ?genesisBlockHash, ?joined, ?linked, ?latestTip,
    ?byOffset, ?bySlot⟩
  case acceptedCount =>
    omega
  case idle =>
    intro hidle
    have hnew : new = [] := List.mapIdx_eq_nil_iff.1 hidle
    rw [hnow.storage, hbase.storage, hnew, List.append_nil]
  case slots =>
    intro i hi
    rw [getElem_newLog hi (by omega), toNat_slot_eventOf, hcount]
  case genesisBlockHash =>
    intro e he
    obtain ⟨i, hi, rfl⟩ := List.getElem_of_mem he
    rw [getElem_newLog hi (by omega)]
    exact hnow.history.chain.genesisBlockHash _
      (List.mem_map.2 ⟨_, List.getElem_mem _, rfl⟩)
  case joined =>
    intro tip htip hpos
    rw [hbase.history.tip, List.getLast?_eq_getElem?, List.getElem?_eq_some_iff] at htip
    obtain ⟨hi, rfl⟩ := htip
    rw [List.length_map] at hi
    have hnext : ledger.length - 1 + 1 < (ledger ++ new).length := by omega
    have hindex : ledger.length - 1 + 1 = ledger.length := by omega
    have hfollows := hnow.follows hnext ledger.length
    rw [List.getElem_append_left hi] at hfollows
    simp only [hindex] at hfollows
    rw [getElem_newLog hpos (by omega)]
    simpa using hfollows
  case linked =>
    intro i hi
    have hnext : ledger.length + i + 1 < (ledger ++ new).length := by omega
    rw [getElem_newLog hi hnext, getElem_newLog (by omega) (by omega)]
    exact hnow.follows hnext _
  case latestTip =>
    intro hpos
    have hlast : (ledger ++ new).length - 1 < (ledger ++ new).length := by omega
    have hindex : ledger.length + ((newLog keccak256 self ledger new).length - 1) =
        (ledger ++ new).length - 1 := by omega
    rw [getElem_newLog (by omega) (by omega)]
    simp only [hindex]
    refine ⟨(ledger ++ new)[(ledger ++ new).length - 1].1, ?_, logged_eventOf _ _, ?_⟩
    · rw [hnow.history.tip, List.getLast?_map, List.getLast?_eq_getElem?,
        List.getElem?_eq_getElem hlast]
      rfl
    · rw [hnow.storage, latestProofHash_storageOf (by omega)]
      rfl
  case byOffset =>
    intro k hk
    have hread := hwindow.byOffset k (by rw [List.length_map]; omega)
    have hindex : ledger.length + ((newLog keccak256 self ledger new).length - 1 - k.toNat) =
        (ledger ++ new).length - 1 - k.toNat := by omega
    refine ⟨_, hread, ?_⟩
    rw [getElem_newLog (by omega) (by omega)]
    simp only [hindex, List.length_map, List.getElem_map]
    exact logged_eventOf _ _
  case bySlot =>
    intro s hs
    have hchain := hnow.history.chain.length_le
    rw [List.length_map] at hchain
    have hshort : (ledger ++ new).length < 2 ^ 256 := by omega
    rw [hbase.storage] at hcount
    obtain ⟨-, hslot⟩ := recentHeaders_append s hshort hcount
    rw [← hnow.storage, ← hbase.storage] at hslot
    have hget : ∀ st : RelayStorage, self.getHeader st s = .ok (st.recentHeaders s) := fun st =>
      if_neg (BitVec.not_le.2 (BitVec.lt_def.2 hs))
    simp only [hget]
    refine ⟨st.recentHeaders s, rfl, ?_⟩
    split at hslot
    · exact hslot
    · rw [hslot]

end Readers

/-- **Whoever reads the log mirrors the relay.**  A reader may join at any moment and sees only the
events since.  After any further calls these events, of consecutive slots and linked to each other
and to the tip the reader found, tell the count, the latest tip and its proof hash, the records of
all offsets they reach, and the slots that changed. -/
theorem log_mirrors (keccak256 : Bytes → Bytes32) (self : BitcoinHeaderRelay)
    (before since : List SubmitCall) : ∃ seen,
      eventLog keccak256 self (before ++ since) = eventLog keccak256 self before ++ seen ∧
      LogMirror self (after keccak256 self before) (after keccak256 self (before ++ since))
        seen := by
  obtain ⟨ledger, new, hbase, hnow⟩ := after_append_ledger keccak256 self before since
  refine ⟨newLog keccak256 self ledger new, ?_, hbase.mirror hnow⟩
  rw [hnow.log, hbase.log, logOf_append]

/-! ## Convergence -/

/-- The bytes of an accepted call: those of its public values and of its proof. -/
def SubmitCall.content (call : SubmitCall) : Bytes × Bytes :=
  (call.publicValues.bytes, call.proofBytes.bytes)

/-- Heights sort a ledger. -/
theorem LedgerInv.pairwise {history : List SubmitCall} {events : List HeaderAccepted}
    {ledger : List LedgerEntry} (h : LedgerInv keccak256 self st history events ledger) :
    ledger.Pairwise fun a b => a.1.height < b.1.height := by
  rw [List.pairwise_iff_getElem]
  intro i j hi hj hij
  have hlt := (h.history.chain.lt hij (by rwa [List.length_map])).1
  rwa [List.getElem_map, List.getElem_map] at hlt

/-- An entry is in the ledger if its content was accepted. -/
theorem LedgerInv.mem_iff {history : List SubmitCall} {events : List HeaderAccepted}
    {ledger : List LedgerEntry} (h : LedgerInv keccak256 self st history events ledger)
    (entry : LedgerEntry) : entry ∈ ledger ↔ ∃ summary : PublicValuesV1,
      (summary.packed, entry.2) ∈ history.map SubmitCall.content ∧
        entry.1 = HeaderRecord.ofSummary summary := by
  constructor
  · intro hentry
    obtain ⟨call, hcall, hdecoded⟩ := exists_of_mem_mapM_ok h.entries hentry
    obtain ⟨summary, hbytes, rfl⟩ := decodedEntry_ok.1 hdecoded
    exact ⟨summary, List.mem_map.2 ⟨call, hcall, Prod.ext hbytes rfl⟩, rfl⟩
  · rintro ⟨summary, hmem, hrecord⟩
    obtain ⟨call, hcall, hcontent⟩ := List.mem_map.1 hmem
    obtain ⟨hbytes, hproof⟩ := Prod.mk.inj hcontent
    obtain ⟨entry', hentry', hdecoded⟩ := mem_of_mapM_ok h.entries hcall
    obtain ⟨summary', hbytes', rfl⟩ := decodedEntry_ok.1 hdecoded
    obtain rfl : summary' = summary := Except.ok.inj
      ((decodePublicValues_ok.2 hbytes').symm.trans (decodePublicValues_ok.2 hbytes))
    have hentry : entry = (HeaderRecord.ofSummary summary', call.proofBytes.bytes) :=
      Prod.ext hrecord hproof.symm
    rwa [hentry]

/-- **What was accepted determines everything.**  Two relays of the same deployment that accepted
the same public values with the same proofs, through whatever other calls and in whatever order
these came, have the same storage and the same log. -/
theorem after_eq_of_accepted (keccak256 : Bytes → Bytes32) (self : BitcoinHeaderRelay)
    (calls calls' : List SubmitCall)
    (hsame : ∀ content, content ∈ (accepted keccak256 self calls).map SubmitCall.content ↔
      content ∈ (accepted keccak256 self calls').map SubmitCall.content) :
    after keccak256 self calls = after keccak256 self calls' ∧
      eventLog keccak256 self calls = eventLog keccak256 self calls' := by
  obtain ⟨ledger, h⟩ := after_ledger keccak256 self calls
  obtain ⟨ledger', h'⟩ := after_ledger keccak256 self calls'
  have hledger : ledger = ledger' := by
    have hirrefl : Std.Irrefl fun a b : LedgerEntry => a.1.height < b.1.height :=
      ⟨fun a => lt_irrefl a.1.height⟩
    have hantisymm : Std.Antisymm fun a b : LedgerEntry => a.1.height < b.1.height :=
      ⟨fun a b hab hba => absurd hba (lt_asymm hab)⟩
    refine h.pairwise.eq_of_mem_iff h'.pairwise fun entry => ?_
    rw [h.mem_iff, h'.mem_iff]
    simp only [hsame]
  rw [h.storage, h'.storage, h.log, h'.log, hledger]
  exact ⟨rfl, rfl⟩

/-- A relay of the sample's genesis. -/
def BitcoinHeaderRelay.sample : BitcoinHeaderRelay where
  VERIFIER := 1
  PROGRAM_V_KEY := .replicate 32 0
  GENESIS_BLOCK_HASH := .replicate 32 3
  RECENT_HEADER_CAPACITY := 2
  capacity_pos := by decide

/-- The sample, with a proof of no bytes and a given answer of the verifier. -/
def SubmitCall.sample (answer : Except Bytes Unit) : SubmitCall where
  publicValues := .sample
  proofBytes := .ofBytes []
  verifyProof _ _ _ _ := answer

/-- The sample is accepted, and an attempt that the verifier refused before leaves no trace. -/
theorem after_eq_of_accepted_sample :
    accepted (fun _ => .replicate 32 0) .sample [.sample (.ok ())] = [.sample (.ok ())] ∧
      after (fun _ => .replicate 32 0) .sample [.sample (.error []), .sample (.ok ())] =
        after (fun _ => .replicate 32 0) .sample [.sample (.ok ())] ∧
      eventLog (fun _ => .replicate 32 0) .sample [.sample (.error []), .sample (.ok ())] =
        eventLog (fun _ => .replicate 32 0) .sample [.sample (.ok ())] := by
  have hrefused : step (fun _ => .replicate 32 0) .sample .initial (.sample (.error [])) =
      .error (.verifier []) := rfl
  have hsubmit : ∃ event, BitcoinHeaderRelay.sample.submit (fun _ => .replicate 32 0) .initial
      (.sample (.ok ())) = .ok (_, event) := (BitcoinHeaderRelay.submit_ok (by decide)).2
    ⟨rfl, .sample, by decide +kernel, ⟨rfl, rfl, fun _ h => by cases h⟩, rfl⟩
  obtain ⟨event, hsubmit⟩ := hsubmit
  have haccepted := (@after_concat_ok _ _ [] _ _ _ hsubmit).2
  refine ⟨haccepted, after_eq_of_accepted _ .sample _ _ fun content => ?_⟩
  unfold accepted Transactions.run
  rw [List.foldl_cons, Transactions.attempt_of_error hrefused]

end Zkpow.Relay
