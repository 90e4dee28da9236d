import Mathlib.Tactic
import Zkpow.Chain
import Zkpow.Lib.MedianWindow

/-!
# Median time past as a clock

The ring of a state holds the last eleven timestamps of its chain, and every accepted header is
above their median.  So the median never falls along a run, and no choice of timestamps keeps it
from rising with every six headers.

* `RingHistory.accepted` — what an accepted header does to the history;
* `applyHeaders_medianTimePast` — the clock, for every batch, also one that fails.
-/

set_option autoImplicit false

namespace Zkpow

open ExceptFold RingWindow MedianWindow

variable {hashHeader : Header → BlockHash}

/-! ## The history of a state -/

/-- One timestamp for every height up to the state's, of which the ring holds the last eleven. -/
structure RingHistory (s : State) (hist : List BlockTimestamp) : Prop where
  length : hist.length = s.height.toNat + 1
  ring : Represents WINDOW_SIZE s.slot hist

/-- Every state has a history: what the ring has overwritten may be read as anything. -/
theorem RingHistory.exists (s : State) : ∃ hist, RingHistory s hist := by
  refine ⟨(List.range (s.height.toNat + 1)).map fun i => s.slot (i % WINDOW_SIZE), ?_, ?_⟩
  · rw [List.length_map, List.length_range]
  · intro i hi _
    rw [List.getElem_map, List.getElem_range]

/-- The median the code checks hints against is that of the history. -/
theorem RingHistory.median {s : State} {hist : List BlockTimestamp} (h : RingHistory s hist) :
    MedianWindow.median WINDOW_SIZE hist = some s.medianTimePast := by
  have hperm := h.ring.slots_perm
  rw [h.length] at hperm
  have hcount : (window WINDOW_SIZE hist).length = s.timestampCount := by
    rw [length_window, h.length, State.timestampCount]
  rw [MedianWindow.median, hcount, ← Rank.kthSmallest_perm hperm, ← trackedTimestamps_eq]
  exact kthSmallest_medianTimePast s

/-- **An accepted header is one more entry of the history**, above its median. -/
theorem RingHistory.accepted {s s' : State} {nh : NewHeader} {hist : List BlockTimestamp}
    (h : RingHistory s hist) (hbound : s.height.toNat + 1 < 2 ^ 32)
    (hacc : acceptHeader hashHeader s nh = .ok s') :
    RingHistory s' (hist ++ [nh.timestamp]) ∧
      ∀ m, MedianWindow.median WINDOW_SIZE hist = some m → m < nh.timestamp := by
  obtain ⟨hts, -, rfl⟩ := acceptHeader_ok.1 hacc
  have hsucc : (s.height + 1).toNat = hist.length := by rw [toNat_add_one hbound, h.length]
  refine ⟨⟨?_, ?_⟩, ?_⟩
  · show _ = (s.height + 1).toNat + 1
    rw [List.length_append, List.length_singleton, hsucc]
  · refine h.ring.push WINDOW_SIZE_pos ?_ fun j hj hne => ?_
    · rw [slot_extend _ _ _ (Nat.mod_lt _ WINDOW_SIZE_pos), hsucc, if_pos rfl]
    · rw [slot_extend _ _ _ hj, hsucc, if_neg (Ne.symm hne)]
  · intro m hm
    rw [h.median] at hm
    rw [← Option.some_inj.1 hm]
    exact hts

/-- The accepted headers of a run are the entries its history gains. -/
theorem RingHistory.run : ∀ {headers : List NewHeader} {s t : State} {hist : List BlockTimestamp},
    RingHistory s hist → s.height.toNat + headers.length < 2 ^ 32 →
    headers.foldlM (acceptHeader hashHeader) s = .ok t →
    RingHistory t (hist ++ headers.map NewHeader.timestamp) ∧
      Rising WINDOW_SIZE hist (headers.map NewHeader.timestamp)
  | [], s, t, hist, h, _, hrun => by
    rw [foldlM_nil_ok] at hrun
    rw [← hrun, List.map_nil, List.append_nil]
    exact ⟨h, trivial⟩
  | nh :: headers, s, t, hist, h, hbound, hrun => by
    rw [List.length_cons] at hbound
    obtain ⟨s', hacc, hrest⟩ := foldlM_cons_ok.1 hrun
    obtain ⟨h', habove⟩ := h.accepted (by omega) hacc
    have hheight := toNat_height_of_acceptHeader hacc (by omega)
    obtain ⟨hfinal, hrising⟩ := h'.run (by omega) hrest
    rw [List.append_assoc] at hfinal
    exact ⟨hfinal, habove, hrising⟩

/-! ## The clock -/

theorem timestamp_toNat_strictMono : StrictMono UInt32.toNat :=
  fun _ _ h => UInt32.lt_iff_toNat_lt.1 h

/-- The median gains a second with every six accepted headers. -/
theorem medianTimePast_add_div_le {headers : List NewHeader} {s t : State}
    (hbound : s.height.toNat + headers.length < 2 ^ 32)
    (hrun : headers.foldlM (acceptHeader hashHeader) s = .ok t) :
    s.medianTimePast.toNat + headers.length / 6 ≤ t.medianTimePast.toNat := by
  obtain ⟨hist, h⟩ := RingHistory.exists s
  obtain ⟨hfinal, hrising⟩ := h.run hbound hrun
  refine hrising.add_div_le WINDOW_SIZE_pos timestamp_toNat_strictMono (headers.length / 6) ?_
    h.median hfinal.median
  rw [List.length_map, WINDOW_SIZE_eq]
  omega

/-- **Median time past is a clock.**  Whatever the timestamps of a batch are, the median of the
state it leaves has gained a second for every six headers accepted, and each accepted header is
later than the clock then shows. -/
theorem applyHeaders_medianTimePast (hashHeader : Header → BlockHash) {s t : State}
    {headers : List NewHeader} {hints : List BlockTimestamp} {result : Except ApplyFailure Unit}
    (hbound : s.height.toNat + headers.length < 2 ^ 32)
    (h : applyHeaders hashHeader s headers hints = .ok (t, result)) :
    ∃ n, n ≤ headers.length ∧ t.height.toNat = s.height.toNat + n ∧
      (result = .ok () → n = headers.length) ∧
      s.medianTimePast.toNat + n / 6 ≤ t.medianTimePast.toNat ∧
      ∀ (i : Nat) (hi : i < headers.length), i < n →
        s.medianTimePast.toNat + i / 6 < headers[i].timestamp.toNat := by
  obtain ⟨n, hn, hrun, hall⟩ := applyHeaders_prefix h
  have hlen : (headers.take n).length = n := List.length_take_of_le hn
  have hheight := toNat_height_of_foldlM hrun (by omega)
  have hclock := medianTimePast_add_div_le (by omega) hrun
  rw [hlen] at hheight hclock
  refine ⟨n, hn, hheight, hall, hclock, fun i hi hin => ?_⟩
  -- the clock after the first `i` headers, and the check of header `i` against it
  have hsplit : headers.take n =
      headers.take i ++ headers[i] :: (headers.take n).drop (i + 1) := by
    calc headers.take n = (headers.take n).take (i + 1) ++ (headers.take n).drop (i + 1) :=
          (List.take_append_drop _ _).symm
      _ = headers.take i ++ headers[i] :: (headers.take n).drop (i + 1) := by
          rw [List.take_take, Nat.min_eq_left (by omega), List.take_succ_eq_append_getElem hi,
            List.append_assoc, List.singleton_append]
  rw [hsplit] at hrun
  obtain ⟨u, hu, hrest⟩ := foldlM_append_ok_iff.1 hrun
  obtain ⟨u', hacc, -⟩ := foldlM_cons_ok.1 hrest
  have hmedian := medianTimePast_add_div_le (by rw [List.length_take]; omega) hu
  have hts := UInt32.lt_iff_toNat_lt.1 (acceptHeader_ok.1 hacc).1
  rw [List.length_take_of_le hi.le] at hmedian
  omega

/-- Seven headers a second apart raise the median from 0 to 4; an eighth at 4 is too old. -/
theorem applyHeaders_medianTimePast_testState :
    let headers := (List.range 7).map (fun i => headerAt (UInt32.ofNat i + 1))
    let t := headers.foldl (State.extend zeroHash) testState
    ∃ n, n ≤ 8 ∧ t.height.toNat = testState.height.toNat + n ∧
      testState.medianTimePast.toNat + n / 6 ≤ t.medianTimePast.toNat := by
  intro headers t
  have hrun : applyHeaders zeroHash testState (headers ++ [headerAt 4])
      [0, 1, 1, 2, 2, 3, 3, 4] = .ok (t, .error ⟨t, .timestampTooOld, 8⟩) := by
    decide +kernel
  obtain ⟨n, hn, hheight, -, hclock, -⟩ := applyHeaders_medianTimePast zeroHash (by decide) hrun
  exact ⟨n, hn, hheight, hclock⟩

end Zkpow
