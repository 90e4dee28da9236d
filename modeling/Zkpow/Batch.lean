import Mathlib.Tactic
import Zkpow.Apply

/-!
# What a batch does

Results about whole calls of `apply_headers`.

* `applyHeaders_batching` — splitting a header list into batches changes nothing: neither the
  state reached nor the failure reported;
* `applyHeaders_failure` — a failing batch reports exactly its longest valid prefix;
* `applyHeaders_consistent` — the cached difficulty values stay consistent, and a retarget
  never panics.
-/

set_option autoImplicit false

namespace Zkpow

open ExceptFold

variable {hashHeader : Header → BlockHash}

/-- `State::default`. -/
def State.default : State where
  header := ⟨0, Vector.replicate 32 0, Vector.replicate 32 0, 0, 0, 0⟩
  blockHash := Vector.replicate 32 0
  genesisHash := Vector.replicate 32 0
  currentNbits := 0
  height := 0
  chainWork := ⟨Vector.replicate 4 0⟩
  currentWork := ⟨Vector.replicate 4 0⟩
  currentTarget := ⟨Vector.replicate 4 0⟩
  epochStartTimestamp := 0
  timestamps := Vector.replicate WINDOW_SIZE 0

/-- A genesis state with the mainnet difficulty and all other fields at their defaults. -/
def testState : State :=
  { State.default with
    currentNbits := GENESIS_NBITS
    currentWork := ⟨#v[0x100010001, 0, 0, 0]⟩
    currentTarget := GENESIS_TARGET }

/-- The hash of all zeros, below every target. -/
def zeroHash : Header → BlockHash := fun _ => Vector.replicate 32 0

/-- The hash of all zeros for headers before `limit`, and one above every target from then on. -/
def zeroHashUntil (limit : BlockTimestamp) : Header → BlockHash := fun header =>
  Vector.replicate 32 (if header.timestamp < limit then 0 else 0xFF)

/-- A header of which only the timestamp matters. -/
def headerAt (timestamp : BlockTimestamp) : NewHeader := ⟨1, Vector.replicate 32 0, timestamp, 0⟩

/-! ## Successful and failing calls -/

theorem applyHeaders_ok {headers : List NewHeader} {hints : List BlockTimestamp} {s t : State} :
    applyHeaders hashHeader s headers hints = .ok (t, .ok ()) ↔
      HintsCorrect hashHeader s headers hints ∧
        headers.foldlM (acceptHeader hashHeader) s = .ok t := by
  rw [applyHeaders_ok_iff]
  cases headers.foldlM (acceptHeader hashHeader) s with
  | ok s' => simp [outcome, eq_comm]
  | error f => simp [outcome]

theorem applyHeaders_err {headers : List NewHeader} {hints : List BlockTimestamp} {s t : State}
    {f : ApplyFailure} :
    applyHeaders hashHeader s headers hints = .ok (t, .error f) ↔
      HintsCorrect hashHeader s headers hints ∧ t = f.lastValidState ∧
        headers.foldlM (acceptHeader hashHeader) s = .error f := by
  rw [applyHeaders_ok_iff]
  cases headers.foldlM (acceptHeader hashHeader) s with
  | ok s' => simp [outcome]
  | error f' =>
    simp only [outcome, Prod.mk.injEq, Except.error.injEq]
    constructor
    · rintro ⟨hc, rfl, rfl⟩; exact ⟨hc, rfl, rfl⟩
    · rintro ⟨hc, rfl, rfl⟩; exact ⟨hc, rfl, rfl⟩

/-! ## Concatenation -/

/-- The hints of a concatenation, once the first part has been applied. -/
theorem hintsCorrect_append {s s' : State} {xs ys : List NewHeader} {mx my : List BlockTimestamp}
    (hx : HintsCorrect hashHeader s xs mx) (hs' : xs.foldlM (acceptHeader hashHeader) s = .ok s') :
    HintsCorrect hashHeader s (xs ++ ys) (mx ++ my) ↔ HintsCorrect hashHeader s' ys my := by
  induction xs generalizing s mx with
  | nil =>
    cases mx with
    | nil =>
      rw [foldlM_nil_ok] at hs'
      rw [hs', List.nil_append, List.nil_append]
    | cons m mx => exact absurd hx.length_eq (by simp)
  | cons nh xs ih =>
    cases mx with
    | nil => exact absurd hx.length_eq (by simp)
    | cons m mx =>
      obtain ⟨s₁, hacc, hrest⟩ := foldlM_cons_ok.1 hs'
      obtain ⟨hm, hlen, hnext⟩ := hintsCorrect_cons.1 hx
      have ih' := ih (hnext s₁ hacc) hrest
      rw [List.cons_append, List.cons_append, hintsCorrect_cons, ← ih']
      constructor
      · rintro ⟨_, _, h⟩
        exact h s₁ hacc
      · intro h
        refine ⟨hm, h.length_eq, fun t ht => ?_⟩
        rw [hacc] at ht
        cases ht
        exact h

/-- Hints past a failing prefix are never looked at. -/
theorem hintsCorrect_append_of_error {s : State} {f : ApplyFailure} {xs ys : List NewHeader}
    {mx my : List BlockTimestamp} (hx : HintsCorrect hashHeader s xs mx)
    (hf : xs.foldlM (acceptHeader hashHeader) s = .error f) (hlen : ys.length = my.length) :
    HintsCorrect hashHeader s (xs ++ ys) (mx ++ my) := by
  refine ⟨by rw [List.length_append, List.length_append, hx.length_eq, hlen], fun i hi s' hs' => ?_⟩
  have hlt : i < xs.length := by
    by_contra hge
    rw [List.take_append, List.take_of_length_le (by omega), foldlM_append_error hf] at hs'
    cases hs'
  rw [List.take_append_of_le_length (by omega)] at hs'
  rw [List.getElem_append_left (by rw [← hx.length_eq]; exact hlt)]
  exact hx.median i _ s' hs'

/-- The hints of a prefix. -/
theorem hintsCorrect_of_append {s : State} {xs ys : List NewHeader}
    {mx my : List BlockTimestamp} (h : HintsCorrect hashHeader s (xs ++ ys) (mx ++ my))
    (hlen : xs.length = mx.length) : HintsCorrect hashHeader s xs mx := by
  refine ⟨hlen, fun i hi s' hs' => ?_⟩
  have hm := h.median i (by rw [List.length_append]; omega) s' (by
    rw [List.take_append_of_le_length (by omega)]; exact hs')
  rwa [List.getElem_append_left hi] at hm

/-- After a successful batch, the rest of the list is a batch of its own. -/
theorem applyHeaders_append_ok {s s' : State} {xs ys : List NewHeader}
    {mx my : List BlockTimestamp} (h : applyHeaders hashHeader s xs mx = .ok (s', .ok ()))
    (r : State × Except ApplyFailure Unit) :
    applyHeaders hashHeader s (xs ++ ys) (mx ++ my) = .ok r ↔
      applyHeaders hashHeader s' ys my = .ok r := by
  obtain ⟨hx, hs'⟩ := applyHeaders_ok.1 h
  rw [applyHeaders_ok_iff, applyHeaders_ok_iff, hintsCorrect_append hx hs', foldlM_append_ok hs']

/-- A failing batch fails the same way whatever follows it. -/
theorem applyHeaders_append_err {s t : State} {f : ApplyFailure} {xs ys : List NewHeader}
    {mx my : List BlockTimestamp} (h : applyHeaders hashHeader s xs mx = .ok (t, .error f))
    (hlen : ys.length = my.length) :
    applyHeaders hashHeader s (xs ++ ys) (mx ++ my) = .ok (t, .error f) := by
  obtain ⟨hx, ht, hf⟩ := applyHeaders_err.1 h
  exact applyHeaders_err.2
    ⟨hintsCorrect_append_of_error hx hf hlen, ht, foldlM_append_error hf ys⟩

/-- Apply batches one after the other, up to the first that fails. -/
def applyBatches (hashHeader : Header → BlockHash) :
    State → List (List NewHeader × List BlockTimestamp) →
      Except Panic (State × Except ApplyFailure Unit)
  | s, [] => .ok (s, .ok ())
  | s, (headers, hints) :: batches => do
    match ← applyHeaders hashHeader s headers hints with
    | (s', .ok ()) => applyBatches hashHeader s' batches
    | failed => .ok failed

theorem applyHeaders_nil (s : State) : applyHeaders hashHeader s [] [] = .ok (s, .ok ()) := rfl

theorem length_flatMap_eq : ∀ {batches : List (List NewHeader × List BlockTimestamp)},
    (∀ b ∈ batches, b.1.length = b.2.length) →
    (batches.flatMap Prod.fst).length = (batches.flatMap Prod.snd).length := by
  intro batches
  induction batches with
  | nil => exact fun _ => rfl
  | cons b batches ih =>
    intro h
    rw [List.flatMap_cons, List.flatMap_cons, List.length_append, List.length_append,
      h b (by simp), ih fun b' hb' => h b' (by simp [hb'])]

/-- A partition into batches gives the outcome of the whole list. -/
theorem applyBatches_eq_applyHeaders : ∀ {batches : List (List NewHeader × List BlockTimestamp)}
    {s : State} {r : State × Except ApplyFailure Unit},
    (∀ b ∈ batches, b.1.length = b.2.length) →
    (applyBatches hashHeader s batches = .ok r ↔
      applyHeaders hashHeader s (batches.flatMap Prod.fst) (batches.flatMap Prod.snd) = .ok r)
  | [], _, _, _ => Iff.rfl
  | (xs, mx) :: batches, s, r, hlen => by
    have hrest : ∀ b ∈ batches, b.1.length = b.2.length := fun b hb => hlen b (by simp [hb])
    unfold applyBatches
    rw [List.flatMap_cons, List.flatMap_cons]
    cases h : applyHeaders hashHeader s xs mx with
    | error p =>
      constructor
      · intro h'; cases h'
      · intro h'
        have hc := hintsCorrect_of_append (applyHeaders_ok_iff.1 h').1 (hlen (xs, mx) (by simp))
        rw [applyHeaders_ok_iff.2 ⟨hc, rfl⟩] at h
        cases h
    | ok res =>
      obtain ⟨s', out⟩ := res
      cases out with
      | ok u =>
        rw [applyHeaders_append_ok h]
        exact applyBatches_eq_applyHeaders hrest
      | error f =>
        rw [applyHeaders_append_err h (length_flatMap_eq hrest)]
        rfl

/-- **Batching does not matter.**  After a successful batch the rest of the list does what it
does as a batch of its own, a failing batch fails the same way whatever follows it, and any
partition into batches has the outcome of the whole list, which is that of accepting the headers
one at a time. -/
theorem applyHeaders_batching (hashHeader : Header → BlockHash) :
    (∀ (s s' : State) (xs ys : List NewHeader) (mx my : List BlockTimestamp)
        (r : State × Except ApplyFailure Unit),
      applyHeaders hashHeader s xs mx = .ok (s', .ok ()) →
      (applyHeaders hashHeader s (xs ++ ys) (mx ++ my) = .ok r ↔
        applyHeaders hashHeader s' ys my = .ok r)) ∧
    (∀ (s t : State) (f : ApplyFailure) (xs ys : List NewHeader) (mx my : List BlockTimestamp),
      ys.length = my.length → applyHeaders hashHeader s xs mx = .ok (t, .error f) →
      applyHeaders hashHeader s (xs ++ ys) (mx ++ my) = .ok (t, .error f)) ∧
    (∀ (s : State) (batches : List (List NewHeader × List BlockTimestamp))
        (r : State × Except ApplyFailure Unit),
      (∀ b ∈ batches, b.1.length = b.2.length) →
      (applyBatches hashHeader s batches = .ok r ↔
        applyHeaders hashHeader s (batches.flatMap Prod.fst) (batches.flatMap Prod.snd) = .ok r) ∧
      (applyBatches hashHeader s batches = .ok r →
        r = outcome ((batches.flatMap Prod.fst).foldlM (acceptHeader hashHeader) s))) := by
  refine ⟨fun s s' xs ys mx my r h => applyHeaders_append_ok h r,
    fun s t f xs ys mx my hlen h => applyHeaders_append_err h hlen, fun s batches r hlen => ?_⟩
  have hiff : applyBatches hashHeader s batches = .ok r ↔ applyHeaders hashHeader s
      (batches.flatMap Prod.fst) (batches.flatMap Prod.snd) = .ok r :=
    applyBatches_eq_applyHeaders hlen
  exact ⟨hiff, fun h => (applyHeaders_ok_iff.1 (hiff.1 h)).2⟩

/-- A batch across a retarget, followed by a good header and one that comes too early. -/
theorem applyHeaders_batching_testState :
    let s := { testState with height := 2015 }
    let t := s.extend zeroHash (headerAt 1)
    let u := t.extend zeroHash (headerAt 2)
    let failed : State × Except ApplyFailure Unit := (u, .error ⟨u, .timestampTooOld, 2018⟩)
    applyHeaders zeroHash s [headerAt 1] [0] = .ok (t, .ok ()) ∧
      (applyHeaders zeroHash s ([headerAt 1] ++ [headerAt 2, headerAt 0]) ([0] ++ [0, 0]) =
          .ok failed ↔
        applyHeaders zeroHash t [headerAt 2, headerAt 0] [0, 0] = .ok failed) ∧
      failed = outcome ([headerAt 1, headerAt 2, headerAt 0].foldlM (acceptHeader zeroHash) s) := by
  intro s t u failed
  have hok : applyHeaders zeroHash s [headerAt 1] [0] = .ok (t, .ok ()) := by decide +kernel
  have hbatches : applyBatches zeroHash s
      [([headerAt 1], [0]), ([headerAt 2, headerAt 0], [0, 0])] = .ok failed := by decide +kernel
  obtain ⟨hsplit, -, hpartition⟩ := applyHeaders_batching zeroHash
  exact ⟨hok, hsplit _ _ _ _ _ _ _ hok, (hpartition _ _ _ (by decide)).2 hbatches⟩

/-! ## Prefixes -/

/-- The state after the first `i` headers, when all of them are accepted. -/
def AcceptedPrefix (hashHeader : Header → BlockHash) (s : State) (headers : List NewHeader)
    (hints : List BlockTimestamp) (i : Nat) (a : State) : Prop :=
  i ≤ headers.length ∧
    applyHeaders hashHeader s (headers.take i) (hints.take i) = .ok (a, .ok ())

theorem AcceptedPrefix.foldlM {s a : State} {headers : List NewHeader}
    {hints : List BlockTimestamp} {i : Nat} (h : AcceptedPrefix hashHeader s headers hints i a) :
    (headers.take i).foldlM (acceptHeader hashHeader) s = .ok a := (applyHeaders_ok.1 h.2).2

/-- One header leads from a prefix to the next. -/
theorem AcceptedPrefix.acceptHeader {s a b : State} {headers : List NewHeader}
    {hints : List BlockTimestamp} {i : Nat} (hi : i < headers.length)
    (ha : AcceptedPrefix hashHeader s headers hints i a)
    (hb : AcceptedPrefix hashHeader s headers hints (i + 1) b) :
    Zkpow.acceptHeader hashHeader a headers[i] = .ok b := by
  have hstep := hb.foldlM
  rw [List.take_succ_eq_append_getElem hi, foldlM_append_ok ha.foldlM, foldlM_cons_ok] at hstep
  obtain ⟨c, hacc, hc⟩ := hstep
  rw [foldlM_nil_ok] at hc
  rw [← hc]
  exact hacc

theorem AcceptedPrefix.unique {s a b : State} {headers : List NewHeader}
    {hints : List BlockTimestamp} {i : Nat} (ha : AcceptedPrefix hashHeader s headers hints i a)
    (hb : AcceptedPrefix hashHeader s headers hints i b) : a = b := by
  have hsame := ha.2.symm.trans hb.2
  exact (Prod.mk.inj (Except.ok.inj hsame)).1

/-- The call for that one header alone. -/
theorem AcceptedPrefix.applyHeaders {s a b : State} {headers : List NewHeader}
    {hints : List BlockTimestamp} {i : Nat} (hi : i < headers.length) (hhint : i < hints.length)
    (ha : AcceptedPrefix hashHeader s headers hints i a)
    (hb : AcceptedPrefix hashHeader s headers hints (i + 1) b) :
    Zkpow.applyHeaders hashHeader a [headers[i]] [hints[i]] = .ok (b, .ok ()) := by
  have hcall := hb.2
  rw [List.take_succ_eq_append_getElem hi, List.take_succ_eq_append_getElem hhint] at hcall
  exact (applyHeaders_append_ok ha.2 _).1 hcall

/-- With the right hint a prefix goes on exactly as its state accepts the next header. -/
theorem AcceptedPrefix.succ_iff {s a b : State} {headers : List NewHeader}
    {hints : List BlockTimestamp} {i : Nat} (hi : i < headers.length)
    (ha : AcceptedPrefix hashHeader s headers hints i a)
    (hhint : hints[i]? = some a.medianTimePast) :
    AcceptedPrefix hashHeader s headers hints (i + 1) b ↔
      Zkpow.acceptHeader hashHeader a headers[i] = .ok b := by
  constructor
  · exact fun hb => ha.acceptHeader hi hb
  · intro hacc
    obtain ⟨hi', hget⟩ := List.getElem?_eq_some_iff.1 hhint
    refine ⟨hi, ?_⟩
    rw [List.take_succ_eq_append_getElem hi, List.take_succ_eq_append_getElem hi', hget,
      applyHeaders_append_ok ha.2, applyHeaders_ok, hintsCorrect_cons, foldlM_cons_ok]
    exact ⟨⟨rfl, rfl, fun t _ => hintsCorrect_nil t⟩, b, hacc, rfl⟩

/-- A prefix of an accepted prefix is accepted. -/
theorem AcceptedPrefix.pred {s b : State} {headers : List NewHeader} {hints : List BlockTimestamp}
    {i : Nat} (hb : AcceptedPrefix hashHeader s headers hints (i + 1) b) :
    ∃ a, AcceptedPrefix hashHeader s headers hints i a := by
  obtain ⟨hi, h⟩ := hb
  obtain ⟨hc, hrun⟩ := applyHeaders_ok.1 h
  have hlen := hc.length_eq
  rw [List.length_take, List.length_take] at hlen
  have hhint : i < hints.length := by omega
  rw [List.take_succ_eq_append_getElem (by omega)] at hc hrun
  rw [List.take_succ_eq_append_getElem hhint] at hc
  obtain ⟨a, hrest, _⟩ := foldlM_append_ok_iff.1 hrun
  have hc' := hintsCorrect_of_append hc (by rw [List.length_take, List.length_take]; omega)
  exact ⟨a, by omega, applyHeaders_ok.2 ⟨hc', hrest⟩⟩

theorem AcceptedPrefix.of_le {s : State} {headers : List NewHeader} {hints : List BlockTimestamp}
    {i j : Nat} (hij : i ≤ j) : ∀ {b : State}, AcceptedPrefix hashHeader s headers hints j b →
    ∃ a, AcceptedPrefix hashHeader s headers hints i a := by
  induction hij with
  | refl => exact fun hb => ⟨_, hb⟩
  | step _ ih =>
    intro b hb
    obtain ⟨a, ha⟩ := hb.pred
    exact ih ha

/-- An accepted list is its own longest prefix. -/
theorem acceptedPrefix_length {s t : State} {headers : List NewHeader}
    {hints : List BlockTimestamp} (h : applyHeaders hashHeader s headers hints = .ok (t, .ok ())) :
    AcceptedPrefix hashHeader s headers hints headers.length t := by
  refine ⟨Nat.le_refl _, ?_⟩
  rw [List.take_length, (applyHeaders_ok.1 h).1.length_eq, List.take_length]
  exact h

/-! ## Failures -/

/-- Each accepted header advances the height by one. -/
theorem height_of_foldlM : ∀ {headers : List NewHeader} {s t : State},
    headers.foldlM (acceptHeader hashHeader) s = .ok t →
    t.height = s.height + UInt32.ofNat headers.length := by
  intro headers
  induction headers with
  | nil =>
    intro s t h
    rw [foldlM_nil_ok] at h
    rw [← h]
    exact (UInt32.add_zero _).symm
  | cons nh headers ih =>
    intro s t h
    obtain ⟨s', hacc, hrest⟩ := foldlM_cons_ok.1 h
    obtain ⟨_, _, rfl⟩ := acceptHeader_ok.1 hacc
    rw [ih hrest, List.length_cons, UInt32.ofNat_add,
      UInt32.add_comm (UInt32.ofNat headers.length), ← UInt32.add_assoc]
    rfl

/-- The height as a number, while it does not wrap. -/
theorem toNat_height_of_foldlM {headers : List NewHeader} {s t : State}
    (h : headers.foldlM (acceptHeader hashHeader) s = .ok t)
    (hlen : s.height.toNat + headers.length < 2 ^ 32) :
    t.height.toNat = s.height.toNat + headers.length := by
  rw [height_of_foldlM h, UInt32.toNat_add, UInt32.toNat_ofNat',
    Nat.mod_eq_of_lt (a := headers.length) (by omega), Nat.mod_eq_of_lt hlen]

theorem toNat_height_of_acceptHeader {nh : NewHeader} {s t : State}
    (h : acceptHeader hashHeader s nh = .ok t) (hlen : s.height.toNat + 1 < 2 ^ 32) :
    t.height.toNat = s.height.toNat + 1 := by
  have hrun : [nh].foldlM (acceptHeader hashHeader) s = .ok t := foldlM_cons_ok.2 ⟨t, h, rfl⟩
  exact toNat_height_of_foldlM hrun hlen

theorem genesisHash_foldlM {headers : List NewHeader} {s t : State}
    (h : headers.foldlM (acceptHeader hashHeader) s = .ok t) : t.genesisHash = s.genesisHash := by
  refine foldlM_inv (P := fun u => u.genesisHash = s.genesisHash) ?_ rfl h
  intro u nh u' hu hacc
  obtain ⟨_, _, rfl⟩ := acceptHeader_ok.1 hacc
  exact hu

/-- What a batch accepts is a prefix of it, and leads to the state it leaves. -/
theorem applyHeaders_prefix {headers : List NewHeader} {hints : List BlockTimestamp} {s t : State}
    {result : Except ApplyFailure Unit}
    (h : applyHeaders hashHeader s headers hints = .ok (t, result)) :
    ∃ n, n ≤ headers.length ∧ (headers.take n).foldlM (acceptHeader hashHeader) s = .ok t ∧
      (result = .ok () → n = headers.length) := by
  cases result with
  | ok u =>
    refine ⟨headers.length, Nat.le_refl _, ?_, fun _ => rfl⟩
    rw [List.take_length]
    exact (applyHeaders_ok.1 h).2
  | error f =>
    obtain ⟨-, ht, hf⟩ := applyHeaders_err.1 h
    obtain ⟨pre, nh, post, s', hsplit, hpre, hrej⟩ := foldlM_error_split hf
    refine ⟨pre.length, by rw [hsplit]; simp, ?_, fun hok => by cases hok⟩
    rw [ht, (acceptHeader_lastValidState hrej).1, hsplit, List.take_left]
    exact hpre

/-- **A failing batch reports exactly its longest valid prefix**: the state after that prefix,
also left in `self`, the height of the header that failed, and which of the two rules it
broke. -/
theorem applyHeaders_failure (hashHeader : Header → BlockHash) {s t : State}
    {headers : List NewHeader} {hints : List BlockTimestamp} {f : ApplyFailure}
    (hlen : s.height.toNat + headers.length < 2 ^ 32)
    (h : applyHeaders hashHeader s headers hints = .ok (t, .error f)) :
    ∃ (i : Nat) (hi : i < headers.length),
      f.failureHeight.toNat = s.height.toNat + i + 1 ∧
      applyHeaders hashHeader s (headers.take i) (hints.take i) = .ok (f.lastValidState, .ok ()) ∧
      t = f.lastValidState ∧
      f.lastValidState.height + 1 = f.failureHeight ∧
      f.lastValidState.height.toNat + 1 = f.failureHeight.toNat ∧
      (f.errorCode = .timestampTooOld ↔
        headers[i].timestamp ≤ f.lastValidState.medianTimePast) ∧
      (f.errorCode ≠ .timestampTooOld → f.errorCode = .powInsufficient ∧
        f.lastValidState.nextDifficulty.target.toNat <
          ByteCodec.ofLE (hashHeader (headers[i].intoHeader f.lastValidState.blockHash
            f.lastValidState.nextDifficulty.nbits)).toList) := by
  obtain ⟨hc, ht, hf⟩ := applyHeaders_err.1 h
  obtain ⟨pre, nh, post, s', hsplit, hpre, hrej⟩ := foldlM_error_split hf
  have hi : pre.length < headers.length := by rw [hsplit]; simp
  have htake : headers.take pre.length = pre := by rw [hsplit]; simp
  have hget : headers[pre.length] = nh := by simp [hsplit]
  obtain ⟨hlast, hheight⟩ := acceptHeader_lastValidState hrej
  have hnat := toNat_height_of_foldlM hpre (by omega)
  have hfh : f.failureHeight.toNat = s'.height.toNat + 1 := by
    rw [hheight, toNat_add_one (by omega)]
  have hlenEq := hc.length_eq
  refine ⟨pre.length, hi, by omega, ?_, ht, by rw [hlast, hheight], by rw [hlast, hfh], ?_, ?_⟩
  · have hc' : HintsCorrect hashHeader s (headers.take pre.length) (hints.take pre.length) := by
      rw [← List.take_append_drop pre.length headers,
        ← List.take_append_drop pre.length hints] at hc
      exact hintsCorrect_of_append hc (by rw [List.length_take, List.length_take, hlenEq])
    rw [applyHeaders_ok, hlast]
    exact ⟨hc', by rw [htake]; exact hpre⟩
  · rw [hget, hlast]
    rcases acceptHeader_error.1 hrej with ⟨hts, rfl⟩ | ⟨hts, _, rfl⟩
    · exact ⟨fun _ => hts, fun _ => rfl⟩
    · constructor
      · intro hcode; cases hcode
      · intro hle; exact absurd hle (not_le.2 hts)
  · intro hcode
    rw [hget, hlast]
    rcases acceptHeader_error.1 hrej with ⟨_, rfl⟩ | ⟨_, hpow, rfl⟩
    · exact absurd rfl hcode
    · refine ⟨rfl, ?_⟩
      rw [← not_le, ← checkProofOfWork_iff]
      exact Bool.eq_false_iff.1 hpow

/-- The second of three headers, at a retarget, misses the new target. -/
theorem applyHeaders_failure_testState :
    let s := { testState with height := 2014 }
    let t := s.extend (zeroHashUntil 2) (headerAt 1)
    ∃ i, (2016 : UInt32).toNat = s.height.toNat + i + 1 ∧
      applyHeaders (zeroHashUntil 2) s ([headerAt 1, headerAt 2, headerAt 3].take i)
        ([0, 0, 9].take i) = .ok (t, .ok ()) ∧
      t.nextDifficulty.target.toNat < ByteCodec.ofLE (List.replicate 32 0xFF) := by
  intro s t
  have hfail : applyHeaders (zeroHashUntil 2) s [headerAt 1, headerAt 2, headerAt 3] [0, 0, 9] =
      .ok (t, .error ⟨t, .powInsufficient, 2016⟩) := by decide +kernel
  obtain ⟨i, _, hheight, hprefix, -, -, -, -, hpow⟩ :=
    applyHeaders_failure (zeroHashUntil 2) (by decide) hfail
  have hone : i = 1 := by
    have hheight' : 2016 = 2014 + i + 1 := hheight
    omega
  subst hone
  exact ⟨1, hheight, hprefix, (hpow (by decide)).2⟩

/-! ## The cached difficulty -/

/-- The cached values belong together. -/
structure State.Consistent (s : State) : Prop where
  target : s.currentTarget = targetFromBits s.currentNbits
  work : workFromTarget s.currentTarget = .ok s.currentWork
  le_limit : s.currentTarget ≤ GENESIS_TARGET

/-- The three values of a difficulty belong together. -/
structure Difficulty.Consistent (d : Difficulty) : Prop where
  target : d.target = targetFromBits d.nbits
  work : workFromTarget d.target = .ok d.work
  le_limit : d.target ≤ GENESIS_TARGET

theorem retargeted_consistent (s : State) : s.retargeted.Consistent := by
  have htarget := calculateNextTargetRequired_snd s.currentTarget s.epochStartTimestamp
    s.tipTimestamp
  have hle := calculateNextTargetRequired_le s.currentTarget s.epochStartTimestamp s.tipTimestamp
  have hwork := workBelowLimit_spec hle
  constructor
  · simp only [State.retargeted]
    exact htarget
  · simp only [State.retargeted]
    exact hwork
  · simp only [State.retargeted]
    exact hle

theorem nextDifficulty_consistent {s : State} (hs : s.Consistent) :
    s.nextDifficulty.Consistent := by
  unfold State.nextDifficulty
  split
  · exact retargeted_consistent s
  · exact ⟨hs.target, hs.work, hs.le_limit⟩

theorem acceptHeader_consistent {s s' : State} {nh : NewHeader} (hs : s.Consistent)
    (h : acceptHeader hashHeader s nh = .ok s') : s'.Consistent := by
  obtain ⟨_, _, rfl⟩ := acceptHeader_ok.1 h
  have hd := nextDifficulty_consistent hs
  exact ⟨hd.target, hd.work, hd.le_limit⟩

theorem foldlM_consistent {headers : List NewHeader} {s t : State} (hs : s.Consistent)
    (h : headers.foldlM (acceptHeader hashHeader) s = .ok t) : t.Consistent :=
  foldlM_inv (fun _ _ _ hP hstep => acceptHeader_consistent hP hstep) hs h

/-- The only panics are those of the two hint assertions. -/
theorem applyHeaders_ne_epochTargetTooLarge (s : State) (headers : List NewHeader)
    (hints : List BlockTimestamp) :
    applyHeaders hashHeader s headers hints ≠ .error .epochTargetTooLarge := by
  by_cases hlen : headers.length = hints.length
  · rw [applyHeaders_eq hlen]
    rcases foldlM_hintedStep hashHeader (s := s) 0 hlen with ⟨_, he⟩ | ⟨_, i, he⟩
    · rw [he]
      cases headers.foldlM (acceptHeader hashHeader) s <;> simp [Except.mapError]
    · rw [he]
      simp
  · unfold applyHeaders
    rw [if_pos hlen]
    simp

/-- The target a candidate is compared with is the one its compact form expands to. -/
theorem targetFromBits_candidate {s : State} (hs : s.Consistent) (nh : NewHeader) :
    targetFromBits (s.candidate nh).compactTarget = s.nextDifficulty.target :=
  (nextDifficulty_consistent hs).target.symm

/-- **The cached difficulty is always consistent and retargeting never panics.**  The state after
a batch and the last valid state of a failing one are consistent, and preparing an epoch never
fails.  The `nbits` hashed into each accepted header expand to the new state's target, whose work
was added; and a header whose hint is right and whose timestamp is late enough is accepted exactly
if its hash is at most the target that the `nbits` hashed into it expand to. -/
theorem applyHeaders_consistent (hashHeader : Header → BlockHash) {s : State} (hs : s.Consistent)
    (headers : List NewHeader) (hints : List BlockTimestamp) :
    (∀ t, applyHeaders hashHeader s headers hints = .ok (t, .ok ()) → t.Consistent) ∧
    (∀ t f, applyHeaders hashHeader s headers hints = .ok (t, .error f) →
      f.lastValidState.Consistent) ∧
    applyHeaders hashHeader s headers hints ≠ .error .epochTargetTooLarge ∧
    (∀ i a b, i < headers.length →
      applyHeaders hashHeader s (headers.take i) (hints.take i) = .ok (a, .ok ()) →
      applyHeaders hashHeader s (headers.take (i + 1)) (hints.take (i + 1)) = .ok (b, .ok ()) →
      b.blockHash = hashHeader b.header ∧
      b.currentTarget = targetFromBits b.header.compactTarget ∧
      checkProofOfWork b.blockHash (targetFromBits b.header.compactTarget) = true ∧
      workFromTarget (targetFromBits b.header.compactTarget) = .ok b.currentWork ∧
      b.chainWork = a.chainWork + b.currentWork) ∧
    (∀ (i : Nat) (a : State) (hi : i < headers.length),
      applyHeaders hashHeader s (headers.take i) (hints.take i) = .ok (a, .ok ()) →
      hints[i]? = some a.medianTimePast → a.medianTimePast < headers[i].timestamp →
      let header := headers[i].intoHeader a.blockHash a.nextDifficulty.nbits
      targetFromBits header.compactTarget = a.nextDifficulty.target ∧
        ((∃ b, applyHeaders hashHeader s (headers.take (i + 1)) (hints.take (i + 1)) =
            .ok (b, .ok ())) ↔
          ByteCodec.ofLE (hashHeader header).toList ≤
            (targetFromBits header.compactTarget).toNat) ∧
        ∀ b, applyHeaders hashHeader s (headers.take (i + 1)) (hints.take (i + 1)) =
          .ok (b, .ok ()) → b.header = header) := by
  refine ⟨fun t h => foldlM_consistent hs (applyHeaders_ok.1 h).2, fun t f h => ?_,
    applyHeaders_ne_epochTargetTooLarge s headers hints, fun i a b hi ha hb => ?_,
    fun i a hi ha hhint htime => ?_⟩
  · obtain ⟨_, _, hf⟩ := applyHeaders_err.1 h
    obtain ⟨pre, nh, post, s', _, hpre, hrej⟩ := foldlM_error_split hf
    rw [(acceptHeader_lastValidState hrej).1]
    exact foldlM_consistent hs hpre
  · have ha' : AcceptedPrefix hashHeader s headers hints i a := ⟨hi.le, ha⟩
    have hacc := ha'.acceptHeader hi ⟨hi, hb⟩
    have hcons := foldlM_consistent hs ha'.foldlM
    obtain ⟨_, hpow, rfl⟩ := acceptHeader_ok.1 hacc
    have htarget : targetFromBits (a.extend hashHeader headers[i]).header.compactTarget =
        a.nextDifficulty.target := targetFromBits_candidate hcons _
    rw [htarget]
    exact ⟨rfl, rfl, hpow, (nextDifficulty_consistent hcons).work, rfl⟩
  · have ha' : AcceptedPrefix hashHeader s headers hints i a := ⟨hi.le, ha⟩
    have htarget := targetFromBits_candidate (foldlM_consistent hs ha'.foldlM) headers[i]
    refine ⟨htarget, ?_, fun b hb => ?_⟩
    · show _ ↔ ByteCodec.ofLE (hashHeader (a.candidate headers[i])).toList ≤
        (targetFromBits (a.candidate headers[i]).compactTarget).toNat
      rw [htarget, ← checkProofOfWork_iff]
      constructor
      · rintro ⟨b, hb⟩
        exact (acceptHeader_ok.1 (ha'.acceptHeader hi ⟨hi, hb⟩)).2.1
      · intro hpow
        have hacc := acceptHeader_ok.2 ⟨htime, hpow, rfl⟩
        exact ⟨_, ((ha'.succ_iff hi hhint).2 hacc).2⟩
    · obtain ⟨_, _, rfl⟩ := acceptHeader_ok.1 (ha'.acceptHeader hi ⟨hi, hb⟩)
      rfl

/-- Two headers on the last state of an epoch: the first retargets, the second misses the target
of the new epoch. -/
theorem applyHeaders_consistent_testState :
    let s := { testState with height := 2015 }
    let t := s.extend (zeroHashUntil 2) (headerAt 1)
    let header := (headerAt 2).intoHeader t.blockHash t.currentNbits
    s.Consistent ∧ t.Consistent ∧ t.currentTarget ≠ s.currentTarget ∧
      t.currentTarget = targetFromBits t.header.compactTarget ∧
      workFromTarget (targetFromBits t.header.compactTarget) = .ok t.currentWork ∧
      targetFromBits header.compactTarget = t.currentTarget ∧
      ¬ ByteCodec.ofLE (zeroHashUntil 2 header).toList ≤
        (targetFromBits header.compactTarget).toNat := by
  intro s t header
  have hs : s.Consistent := ⟨by decide +kernel, by decide +kernel, by decide⟩
  have hfirst : applyHeaders (zeroHashUntil 2) s [headerAt 1] [0] = .ok (t, .ok ()) := by
    decide +kernel
  have hfail : applyHeaders (zeroHashUntil 2) s [headerAt 1, headerAt 2] [0, 0] =
      .ok (t, .error ⟨t, .powInsufficient, 2017⟩) := by decide +kernel
  obtain ⟨-, hlast, -, haccepted, hexact⟩ :=
    applyHeaders_consistent (zeroHashUntil 2) hs [headerAt 1, headerAt 2] [0, 0]
  obtain ⟨-, htarget, -, hwork, -⟩ := haccepted 0 s t (by decide) rfl hfirst
  have hinside : t.nextDifficulty = t.difficulty := if_neg (by decide +kernel)
  obtain ⟨hnext, hiff, -⟩ := hexact 1 t (by decide) hfirst (by decide +kernel) (by decide +kernel)
  rw [hinside] at hnext hiff
  refine ⟨hs, hlast t _ hfail, by decide +kernel, htarget, hwork, hnext, fun hle => ?_⟩
  obtain ⟨b, hb⟩ := hiff.2 hle
  cases hb.symm.trans hfail

end Zkpow
