import Mathlib.Tactic
import Zkpow.Lib.RingWindow
import Zkpow.Lib.Transactions
import Zkpow.Relay

/-!
# The relay over whole histories

Any sequence of submissions, accepted or reverted, by anybody and with any answers of the
verifier.  The records of the accepted ones form one chain; the relay's storage is a window on it.

* `after_history` — the invariant: storage and history belong together;
* `relay_window` — every read returns what the history says;
* `relay_chain` — the history is linked and grows, nothing is accepted twice, and a call is
  accepted exactly if it may follow the last record.
-/

set_option autoImplicit false

namespace Zkpow.Relay

open ByteCodec ExceptFold

/-! ## Runs -/

/-- The storage a call leads to. -/
def step (keccak256 : Bytes → Bytes32) (self : BitcoinHeaderRelay) (st : RelayStorage)
    (call : SubmitCall) : Except Revert RelayStorage :=
  (self.submit keccak256 st call).map Prod.fst

/-- The storage after a sequence of calls to a new relay. -/
def after (keccak256 : Bytes → Bytes32) (self : BitcoinHeaderRelay) (calls : List SubmitCall) :
    RelayStorage :=
  (Transactions.run (step keccak256 self) .initial calls).1

/-- The calls of the sequence that were accepted. -/
def accepted (keccak256 : Bytes → Bytes32) (self : BitcoinHeaderRelay) (calls : List SubmitCall) :
    List SubmitCall :=
  (Transactions.run (step keccak256 self) .initial calls).2

/-- The record a call carries. -/
def decodedRecord (call : SubmitCall) : Except Revert HeaderRecord :=
  (decodePublicValues call.publicValues).map HeaderRecord.ofSummary

variable {keccak256 : Bytes → Bytes32} {self : BitcoinHeaderRelay} {st : RelayStorage}

/-! ## The chain of records -/

/-- A linked chain of records, all of the relay's genesis. -/
structure RecordChain (relay : BitcoinHeaderRelay) (records : List HeaderRecord) : Prop where
  schemaVersion : ∀ r ∈ records, r.schemaVersion = 1
  genesisBlockHash : ∀ r ∈ records, r.genesisBlockHash = relay.GENESIS_BLOCK_HASH
  linked : ∀ i (h : i + 1 < records.length), records[i + 1].Extends records[i]

theorem RecordChain.nil (relay : BitcoinHeaderRelay) : RecordChain relay [] :=
  ⟨fun _ h => (List.not_mem_nil h).elim, fun _ h => (List.not_mem_nil h).elim,
    fun _ h => absurd h (Nat.not_lt_zero _)⟩

theorem RecordChain.concat {records : List HeaderRecord} {r : HeaderRecord}
    (h : RecordChain self records) (hr : self.Acceptable records.getLast? r) :
    RecordChain self (records ++ [r]) where
  schemaVersion q hq := by
    rcases List.mem_append.1 hq with hold | hnew
    · exact h.schemaVersion q hold
    · rw [List.mem_singleton.1 hnew]
      exact hr.schemaVersion
  genesisBlockHash q hq := by
    rcases List.mem_append.1 hq with hold | hnew
    · exact h.genesisBlockHash q hold
    · rw [List.mem_singleton.1 hnew]
      exact hr.genesisBlockHash
  linked i hi := by
    rw [List.length_append, List.length_singleton] at hi
    have hi' : i < records.length := by omega
    rw [List.getElem_append_left hi']
    by_cases hlast : i + 1 < records.length
    · rw [List.getElem_append_left hlast]
      exact h.linked i hlast
    · rw [List.getElem_append_right (not_lt.1 hlast), List.getElem_singleton]
      refine hr.extends_tip _ ?_
      rw [List.getLast?_eq_getElem?, List.getElem?_eq_getElem (by omega)]
      congr 2
      omega

/-- Heights and work grow along the chain. -/
theorem RecordChain.lt {records : List HeaderRecord} (h : RecordChain self records) {i : Nat} :
    ∀ {j : Nat} (hij : i < j) (hj : j < records.length),
      records[i].height < records[j].height ∧
        records[i].cumulativeChainWork < records[j].cumulativeChainWork := by
  intro j hij
  induction hij with
  | refl =>
    intro hj
    have hnext := h.linked i hj
    exact ⟨hnext.height, hnext.work⟩
  | step _ ih =>
    intro hj
    have hbefore := ih (by omega)
    have hnext := h.linked _ hj
    exact ⟨hbefore.1.trans hnext.height, BitVec.lt_trans hbefore.2 hnext.work⟩

/-- A record's height is at least the number of records before it. -/
theorem RecordChain.index_le {records : List HeaderRecord} (h : RecordChain self records) :
    ∀ {i : Nat} (hi : i < records.length), i ≤ records[i].height.toNat
  | 0, _ => Nat.zero_le _
  | i + 1, hi => by
    have hbefore := h.index_le (i := i) (by omega)
    have hgrows := UInt32.lt_iff_toNat_lt.1 (h.linked i hi).height
    omega

/-- There are no more records than heights, so that counting them never overflows. -/
theorem RecordChain.length_le {records : List HeaderRecord} (h : RecordChain self records) :
    records.length ≤ 2 ^ 32 := by
  by_contra hlong
  have hin : 2 ^ 32 < records.length := not_le.1 hlong
  have hindex := h.index_le hin
  have hlt := records[2 ^ 32].height.toNat_lt
  omega

/-! ## The invariant -/

/-- The storage of a relay that has accepted the given records. -/
structure HistoryInv (relay : BitcoinHeaderRelay) (st : RelayStorage)
    (records : List HeaderRecord) : Prop where
  chain : RecordChain relay records
  count : st.acceptedCount.toNat = records.length
  tip : st.tip = records.getLast?
  ring : RingWindow.Represents relay.RECENT_HEADER_CAPACITY.toNat
    (fun i => st.recentHeaders (BitVec.ofNat 256 i)) records

theorem HistoryInv.initial (relay : BitcoinHeaderRelay) : HistoryInv relay .initial [] where
  chain := .nil relay
  count := rfl
  tip := rfl
  ring := .nil _ _

theorem HistoryInv.count_lt {records : List HeaderRecord} (h : HistoryInv self st records) :
    st.acceptedCount.toNat + 1 < 2 ^ 256 := by
  have hle := h.chain.length_le
  rw [h.count]
  omega

/-- **An accepted call extends the history by its record.** -/
theorem HistoryInv.stored {records : List HeaderRecord} (h : HistoryInv self st records)
    (call : SubmitCall) {r : HeaderRecord} (hr : self.Acceptable st.tip r) :
    HistoryInv self (self.stored keccak256 st call r) (records ++ [r]) where
  chain := h.chain.concat (h.tip ▸ hr)
  count := by
    have hlt := h.count_lt
    rw [List.length_append, List.length_singleton, ← h.count]
    exact (BitVec.toNat_add _ _).trans (Nat.mod_eq_of_lt hlt)
  tip := by
    rw [List.getLast?_concat]
    rfl
  ring := by
    have hslot : (st.acceptedCount % self.RECENT_HEADER_CAPACITY).toNat =
        records.length % self.RECENT_HEADER_CAPACITY.toNat := by
      rw [BitVec.toNat_umod, h.count]
    have hcapacity := self.RECENT_HEADER_CAPACITY.isLt
    refine h.ring.push self.capacity_pos ?_ ?_
    · rw [← hslot, BitVec.ofNat_toNat, BitVec.setWidth_eq]
      exact Function.update_self _ _ _
    · intro j hj hne
      refine Function.update_of_ne (fun he => hne ?_) _ _
      rw [← hslot, ← he, BitVec.toNat_ofNat, Nat.mod_eq_of_lt (by omega)]

/-- **The invariant of every history.** -/
theorem after_history (keccak256 : Bytes → Bytes32) (self : BitcoinHeaderRelay)
    (calls : List SubmitCall) : ∃ records,
      (accepted keccak256 self calls).mapM decodedRecord = .ok records ∧
      HistoryInv self (after keccak256 self calls) records := by
  refine Transactions.run_inv (fun st history => ∃ records,
    history.mapM decodedRecord = .ok records ∧ HistoryInv self st records)
    ⟨[], rfl, .initial self⟩ ?_ calls
  rintro st history call st' ⟨records, hrecords, hinv⟩ hstep
  obtain ⟨⟨_, event⟩, hsubmit, rfl⟩ := map_ok.1 hstep
  obtain ⟨-, summary, hbytes, hvalid, hst⟩ :=
    (BitcoinHeaderRelay.submit_ok hinv.count_lt).1 ⟨event, hsubmit⟩
  refine ⟨records ++ [HeaderRecord.ofSummary summary], ?_, ?_⟩
  · have hrecord : decodedRecord call = .ok (HeaderRecord.ofSummary summary) := by
      rw [decodedRecord, decodePublicValues_ok.2 hbytes]
      rfl
    rw [List.mapM_append, hrecords]
    simp [hrecord]
    rfl
  · rw [hst]
    exact hinv.stored call hvalid

/-! ## Reads -/

/-- What the read functions return is what a window on the records returns. -/
structure RelayWindow (relay : BitcoinHeaderRelay) (st : RelayStorage)
    (records : List HeaderRecord) : Prop where
  acceptedCount : st.acceptedCount.toNat = records.length
  hasTip : st.hasTip = true ↔ 0 < records.length
  latestTip : ∀ _ : 0 < records.length,
    BitcoinHeaderRelay.latestTip st = records[records.length - 1]
  byOffset : ∀ (k : Uint256)
    (_ : k.toNat < min records.length relay.RECENT_HEADER_CAPACITY.toNat),
    relay.getHeaderByOffset st k = .ok records[records.length - 1 - k.toNat]
  byOffset_reverts : ∀ k : Uint256,
    min records.length relay.RECENT_HEADER_CAPACITY.toNat ≤ k.toNat →
    ∃ e, relay.getHeaderByOffset st k = .error e
  recent : ∀ c : Uint256, c.toNat ≤ min records.length relay.RECENT_HEADER_CAPACITY.toNat →
    relay.getRecentHeaders st c = .ok (records.reverse.take c.toNat)
  recent_reverts : ∀ c : Uint256,
    min records.length relay.RECENT_HEADER_CAPACITY.toNat < c.toNat →
    ∃ e, relay.getRecentHeaders st c = .error e
  bySlot : ∀ s : Uint256, s.toNat < relay.RECENT_HEADER_CAPACITY.toNat →
    s.toNat < records.length →
    ∃ (j : Nat) (_ : j < records.length), j % relay.RECENT_HEADER_CAPACITY.toNat = s.toNat ∧
      (∀ i, j < i → i < records.length → i % relay.RECENT_HEADER_CAPACITY.toNat ≠ s.toNat) ∧
      relay.getHeader st s = .ok records[j]

section Reads

variable {records : List HeaderRecord} (h : HistoryInv self st records)

include h

theorem HistoryInv.toNat_available :
    (self.available st).toNat = min records.length self.RECENT_HEADER_CAPACITY.toNat := by
  unfold BitcoinHeaderRelay.available
  rw [← h.count]
  split
  · rename_i hlt
    exact (Nat.min_eq_left (BitVec.lt_def.1 hlt).le).symm
  · rename_i hge
    exact (Nat.min_eq_right (BitVec.le_def.1 (BitVec.not_lt.1 hge))).symm

/-- The slot of a recent index holds its record. -/
theorem HistoryInv.recentHeaders_eq {slot : Uint256} {i : Nat} (hi : i < records.length)
    (hrecent : records.length ≤ i + self.RECENT_HEADER_CAPACITY.toNat)
    (hslot : slot.toNat = i % self.RECENT_HEADER_CAPACITY.toNat) :
    st.recentHeaders slot = records[i] := by
  rw [← h.ring.slot_eq hi hrecent, ← hslot, BitVec.ofNat_toNat, BitVec.setWidth_eq]

/-- Reading backwards from the count reads backwards from the end of the history. -/
theorem HistoryInv.recentHeader_eq {k : Uint256}
    (hk : k.toNat < min records.length self.RECENT_HEADER_CAPACITY.toNat) :
    self.recentHeader st k = .ok records[records.length - 1 - k.toNat] := by
  have hcount := h.count
  obtain ⟨last, hlast, hlastNat⟩ := checkedSub_ok (a := st.acceptedCount) (b := 1)
    (show 1 ≤ st.acceptedCount.toNat by omega)
  have hone : last.toNat = st.acceptedCount.toNat - 1 := hlastNat
  obtain ⟨index, hindex, hindexNat⟩ := checkedSub_ok (a := last) (b := k) (by omega)
  obtain ⟨slot, hslot, hslotNat⟩ := checkedMod_ok (a := index) self.capacity_pos
  have hread : st.recentHeaders slot = records[records.length - 1 - k.toNat] :=
    h.recentHeaders_eq (by omega) (by omega) (by rw [hslotNat, hindexNat, hone, hcount])
  unfold BitcoinHeaderRelay.recentHeader
  rw [hlast]
  simp only [bind, Except.bind]
  rw [hindex]
  simp only
  rw [hslot, ← hread]
  rfl

theorem HistoryInv.getHeaderByOffset_ok {k : Uint256}
    (hk : k.toNat < min records.length self.RECENT_HEADER_CAPACITY.toNat) :
    self.getHeaderByOffset st k = .ok records[records.length - 1 - k.toNat] := by
  have hin : ¬ self.available st ≤ k := by
    rw [BitVec.le_def, h.toNat_available]
    omega
  unfold BitcoinHeaderRelay.getHeaderByOffset
  rw [if_neg hin]
  exact h.recentHeader_eq hk

theorem HistoryInv.getRecentHeaders_ok {c : Uint256}
    (hc : c.toNat ≤ min records.length self.RECENT_HEADER_CAPACITY.toNat) :
    self.getRecentHeaders st c = .ok (records.reverse.take c.toNat) := by
  have hin : ¬ self.available st < c := by
    rw [BitVec.lt_def, h.toNat_available]
    omega
  unfold BitcoinHeaderRelay.getRecentHeaders
  rw [if_neg hin, mapM_ok_iff, List.forall₂_iff_get]
  refine ⟨by simp; omega, fun i hi hi' => ?_⟩
  have hlt : i < c.toNat := by simpa using hi
  have hnat : (BitVec.ofNat 256 i).toNat = i := by
    rw [BitVec.toNat_ofNat, Nat.mod_eq_of_lt (by have := c.isLt; omega)]
  have hread := h.recentHeader_eq (k := BitVec.ofNat 256 i) (by omega)
  simp only [hnat] at hread
  simpa using hread

/-- The last accepted record of a slot. -/
theorem HistoryInv.getHeader_ok {s : Uint256} (hs : s.toNat < self.RECENT_HEADER_CAPACITY.toNat)
    (hm : s.toNat < records.length) : ∃ (j : Nat) (_ : j < records.length),
      j % self.RECENT_HEADER_CAPACITY.toNat = s.toNat ∧
      (∀ i, j < i → i < records.length → i % self.RECENT_HEADER_CAPACITY.toNat ≠ s.toNat) ∧
      self.getHeader st s = .ok records[j] := by
  obtain ⟨j, hj, hslot, hrecent, hlast⟩ := RingWindow.exists_last_index hs hm
  refine ⟨j, hj, hslot, hlast, ?_⟩
  unfold BitcoinHeaderRelay.getHeader
  rw [if_neg (BitVec.not_le.2 (BitVec.lt_def.2 hs)), h.recentHeaders_eq hj hrecent hslot.symm]

/-- **Storage and history belong together**: the storage is a window on the history. -/
theorem HistoryInv.window : RelayWindow self st records where
  acceptedCount := h.count
  hasTip := by
    have htip := h.tip
    unfold RelayStorage.tip at htip
    rw [List.length_pos_iff, ← List.getLast?_isSome, ← htip]
    split <;> simp [*]
  latestTip hpos := by
    have htip := h.tip
    unfold RelayStorage.tip at htip
    rw [List.getLast?_eq_getElem?, List.getElem?_eq_getElem (by omega)] at htip
    split at htip
    · exact Option.some.inj htip
    · cases htip
  byOffset k hk := h.getHeaderByOffset_ok hk
  byOffset_reverts k hk := by
    unfold BitcoinHeaderRelay.getHeaderByOffset
    rw [if_pos (by rw [BitVec.le_def, h.toNat_available]; exact hk)]
    exact ⟨_, rfl⟩
  recent c hc := h.getRecentHeaders_ok hc
  recent_reverts c hc := by
    unfold BitcoinHeaderRelay.getRecentHeaders
    rw [if_pos (by rw [BitVec.lt_def, h.toNat_available]; exact hc)]
    exact ⟨_, rfl⟩
  bySlot s hs hm := h.getHeader_ok hs hm

end Reads

/-! ## Histories -/

theorem after_concat_ok {calls : List SubmitCall} {call : SubmitCall} {st' : RelayStorage}
    {event : HeaderAccepted}
    (h : self.submit keccak256 (after keccak256 self calls) call = .ok (st', event)) :
    after keccak256 self (calls ++ [call]) = st' ∧
      accepted keccak256 self (calls ++ [call]) = accepted keccak256 self calls ++ [call] := by
  have hstep : step keccak256 self (after keccak256 self calls) call = .ok st' := by
    rw [step, h]
    rfl
  unfold after accepted
  rw [Transactions.run_concat, Transactions.attempt_of_ok hstep]
  exact ⟨rfl, rfl⟩

theorem after_concat_error {calls : List SubmitCall} {call : SubmitCall} {e : Revert}
    (h : self.submit keccak256 (after keccak256 self calls) call = .error e) :
    after keccak256 self (calls ++ [call]) = after keccak256 self calls ∧
      accepted keccak256 self (calls ++ [call]) = accepted keccak256 self calls := by
  have hstep : step keccak256 self (after keccak256 self calls) call = .error e := by
    rw [step, h]
    rfl
  unfold after accepted
  rw [Transactions.run_concat, Transactions.attempt_of_error hstep]
  exact ⟨rfl, rfl⟩

/-- **The relay is a faithful window of what it accepted.**  After any sequence of submissions the
reads return what a window on the records of the accepted ones returns; an accepted submission adds
its record, a reverted one changes nothing. -/
theorem relay_window (keccak256 : Bytes → Bytes32) (self : BitcoinHeaderRelay)
    (calls : List SubmitCall) : ∃ records,
      (accepted keccak256 self calls).mapM decodedRecord = .ok records ∧
      RelayWindow self (after keccak256 self calls) records ∧
      (∀ call st' event,
        self.submit keccak256 (after keccak256 self calls) call = .ok (st', event) →
        after keccak256 self (calls ++ [call]) = st' ∧
          accepted keccak256 self (calls ++ [call]) = accepted keccak256 self calls ++ [call]) ∧
      (∀ call e, self.submit keccak256 (after keccak256 self calls) call = .error e →
        after keccak256 self (calls ++ [call]) = after keccak256 self calls ∧
          accepted keccak256 self (calls ++ [call]) = accepted keccak256 self calls) := by
  obtain ⟨records, hrecords, hinv⟩ := after_history keccak256 self calls
  exact ⟨records, hrecords, hinv.window, fun _ _ _ => after_concat_ok,
    fun _ _ => after_concat_error⟩

/-- No two records have the same height. -/
theorem RecordChain.index_unique {records : List HeaderRecord} (h : RecordChain self records)
    {i j : Nat} (hi : i < records.length) (hj : j < records.length)
    (heq : records[i].height = records[j].height) : i = j := by
  rcases Nat.lt_trichotomy i j with hlt | rfl | hgt
  · exact absurd heq (ne_of_lt (h.lt hlt hj).1)
  · rfl
  · exact absurd heq.symm (ne_of_lt (h.lt hgt hi).1)

/-- No record of the chain may follow its last one. -/
theorem RecordChain.not_acceptable {records : List HeaderRecord} (h : RecordChain self records)
    {r : HeaderRecord} (hr : r ∈ records) : ¬ self.Acceptable records.getLast? r := by
  intro hacc
  obtain ⟨i, hi, rfl⟩ := List.getElem_of_mem hr
  have hlast : records.getLast? = some records[records.length - 1] := by
    rw [List.getLast?_eq_getElem?, List.getElem?_eq_getElem (by omega)]
  have hgrows := (hacc.extends_tip _ hlast).height
  by_cases hi' : i = records.length - 1
  · subst hi'
    exact lt_irrefl _ hgrows
  · exact lt_asymm hgrows (h.lt (show i < records.length - 1 by omega) (by omega)).1

/-- When a call is accepted after a history. -/
theorem HistoryInv.submit_ok_iff {records : List HeaderRecord} (h : HistoryInv self st records)
    {call : SubmitCall} : (∃ r, self.submit keccak256 st call = .ok r) ↔ call.Verifies self ∧
      ∃ summary : PublicValuesV1, call.publicValues.bytes = summary.packed ∧
        self.Acceptable records.getLast? (HeaderRecord.ofSummary summary) := by
  constructor
  · rintro ⟨⟨st', event⟩, hsubmit⟩
    obtain ⟨hverified, summary, hbytes, hvalid, -⟩ :=
      (BitcoinHeaderRelay.submit_ok h.count_lt).1 ⟨event, hsubmit⟩
    exact ⟨hverified, summary, hbytes, h.tip ▸ hvalid⟩
  · rintro ⟨hverified, summary, hbytes, hvalid⟩
    obtain ⟨event, hsubmit⟩ := (BitcoinHeaderRelay.submit_ok h.count_lt).2
      ⟨hverified, summary, hbytes, h.tip ▸ hvalid, rfl⟩
    exact ⟨_, hsubmit⟩

/-- Public values that were accepted once are refused ever after. -/
theorem HistoryInv.replay_reverts {records : List HeaderRecord} (h : HistoryInv self st records)
    {history : List SubmitCall} (hrecords : history.mapM decodedRecord = .ok records)
    {old call : SubmitCall} (hold : old ∈ history)
    (hbytes : call.publicValues.bytes = old.publicValues.bytes) :
    ∃ e, self.submit keccak256 st call = .error e := by
  cases hsubmit : self.submit keccak256 st call with
  | error e => exact ⟨e, rfl⟩
  | ok r =>
    obtain ⟨-, summary, hpacked, hvalid⟩ := h.submit_ok_iff.1 ⟨r, hsubmit⟩
    obtain ⟨record, hrecord, hdecoded⟩ := mem_of_mapM_ok hrecords hold
    rw [decodedRecord, decodePublicValues_ok.2 (hbytes.symm.trans hpacked)] at hdecoded
    obtain rfl : HeaderRecord.ofSummary summary = record := Except.ok.inj hdecoded
    exact absurd hvalid (h.chain.not_acceptable hrecord)

/-- Adjacent results of `getRecentHeaders` are adjacent records. -/
theorem RelayWindow.recent_linked {records : List HeaderRecord} (h : RelayWindow self st records)
    (hchain : RecordChain self records) {count : Uint256} {rs : List HeaderRecord}
    (hrs : self.getRecentHeaders st count = .ok rs) (i : Nat) (hi : i + 1 < rs.length) :
    rs[i].Extends rs[i + 1] := by
  by_cases hc : count.toNat ≤ min records.length self.RECENT_HEADER_CAPACITY.toNat
  · rw [h.recent count hc, Except.ok.injEq] at hrs
    subst hrs
    have hlen : i + 1 < records.length := by
      rw [List.length_take, List.length_reverse] at hi
      omega
    simp only [List.getElem_take, List.getElem_reverse]
    have hlinked := hchain.linked (records.length - 1 - (i + 1)) (by omega)
    have hindex : records.length - 1 - (i + 1) + 1 = records.length - 1 - i := by omega
    simp only [hindex] at hlinked
    exact hlinked
  · obtain ⟨e, he⟩ := h.recent_reverts count (not_le.1 hc)
    rw [he] at hrs
    cases hrs

/-- **The relay stores one linked chain of increasing work.**  The records of the accepted calls
are linked and grow in height and work, so that none is accepted twice, accepted public values are
never accepted again, and adjacent recent headers are linked; and a call is accepted exactly if its
proof verifies and its 228 bytes are the packed form of a record that may follow the last one. -/
theorem relay_chain (keccak256 : Bytes → Bytes32) (self : BitcoinHeaderRelay)
    (calls : List SubmitCall) : ∃ records,
      (accepted keccak256 self calls).mapM decodedRecord = .ok records ∧
      RecordChain self records ∧
      (∀ (i j : Nat) (hi : i < records.length) (hj : j < records.length),
        records[i].height = records[j].height →
        records[i].cumulativeChainWork = records[j].cumulativeChainWork → i = j) ∧
      (∀ old ∈ accepted keccak256 self calls, ∀ call : SubmitCall,
        call.publicValues.bytes = old.publicValues.bytes →
        ∃ e, self.submit keccak256 (after keccak256 self calls) call = .error e) ∧
      (∀ count rs, self.getRecentHeaders (after keccak256 self calls) count = .ok rs →
        ∀ i (hi : i + 1 < rs.length), rs[i].Extends rs[i + 1]) ∧
      (∀ call : SubmitCall,
        (∃ r, self.submit keccak256 (after keccak256 self calls) call = .ok r) ↔
          call.Verifies self ∧ ∃ summary : PublicValuesV1,
            call.publicValues.bytes = summary.packed ∧
            self.Acceptable records.getLast? (HeaderRecord.ofSummary summary)) := by
  obtain ⟨records, hrecords, hinv⟩ := after_history keccak256 self calls
  exact ⟨records, hrecords, hinv.chain, fun _ _ hi hj heq _ => hinv.chain.index_unique hi hj heq,
    fun _ hold _ hbytes => hinv.replay_reverts hrecords hold hbytes,
    fun _ _ hrs => hinv.window.recent_linked hinv.chain hrs, fun _ => hinv.submit_ok_iff⟩

end Zkpow.Relay
