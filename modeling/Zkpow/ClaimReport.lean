import Mathlib.Tactic
import Zkpow.Config
import Zkpow.Lib.Runs
import Zkpow.Lib.Utf8Text

/-!
# The report of a claim mismatch

`crates/host/src/pipeline/diagnostics.rs`: when the claim that a batch proved is not the one the
database has, the host prints both, byte by byte, and marks what differs, in colours or in brackets.
Texts are lists of characters, measured and sliced in bytes of UTF-8 as the code does; the texts of
a claim are hexadecimal, two characters for each byte of the claim.

* `highlightWithExpectedMode_iff` — on which texts the loop does not panic; it then marks the
  maximal runs of differing pieces, and the leading zeros;
* `formatClaimMismatch_inj` — a report can be of one pair of claims only.
-/

set_option autoImplicit false

namespace Zkpow.Host

open ByteCodec ExceptFold Runs Utf8Text

abbrev Text := List Char

/-! ## Highlighting -/

def ACTUAL_ANSI_START : Text := "\x1b[31m".toList
def EXPECTED_ANSI_START : Text := "\x1b[32m".toList
def LEADING_ZERO_ANSI_START : Text := "\x1b[97m".toList
def ANSI_END : Text := "\x1b[0m".toList
def BRACKET_START : Text := "[".toList
def BRACKET_END : Text := "]".toList

inductive HighlightMode where
  | ansi
  | brackets
  deriving DecidableEq, Repr

namespace HighlightMode

def actualStart : HighlightMode → Text
  | ansi => ACTUAL_ANSI_START
  | brackets => BRACKET_START

def expectedStart : HighlightMode → Text
  | ansi => EXPECTED_ANSI_START
  | brackets => BRACKET_START

def stop : HighlightMode → Text
  | ansi => ANSI_END
  | brackets => BRACKET_END

end HighlightMode

/-- The two output rows, and where the loop is. -/
structure Highlight where
  actualOut : Text
  expectedOut : Text
  inMismatchRun : Bool
  inLeadingZeroRun : Bool
  stillLeadingZeros : Bool

namespace Highlight

def endMismatchRun (mode : HighlightMode) (st : Highlight) : Highlight :=
  if st.inMismatchRun then
    { st with
      actualOut := st.actualOut ++ mode.stop
      expectedOut := st.expectedOut ++ mode.stop
      inMismatchRun := false }
  else st

def endLeadingZeroRun (st : Highlight) : Highlight :=
  if st.inLeadingZeroRun then
    { st with actualOut := st.actualOut ++ ANSI_END, inLeadingZeroRun := false }
  else st

/-- One turn, on two bytes of each text: the expected ones first. -/
def step (mode : HighlightMode) (st : Highlight) (byte : Text × Text) : Highlight :=
  if byte.1 = byte.2 then
    let st := st.endMismatchRun mode
    let st :=
      if st.stillLeadingZeros ∧ byte.1 = ['0', '0'] ∧ mode = .ansi then
        if st.inLeadingZeroRun then st
        else { st with
          actualOut := st.actualOut ++ LEADING_ZERO_ANSI_START, inLeadingZeroRun := true }
      else { st.endLeadingZeroRun with stillLeadingZeros := false }
    { st with actualOut := st.actualOut ++ byte.2, expectedOut := st.expectedOut ++ [' ', ' '] }
  else
    let st := { st.endLeadingZeroRun with stillLeadingZeros := false }
    let st :=
      if st.inMismatchRun then st
      else { st with
        actualOut := st.actualOut ++ mode.actualStart
        expectedOut := st.expectedOut ++ mode.expectedStart
        inMismatchRun := true }
    { st with actualOut := st.actualOut ++ byte.2, expectedOut := st.expectedOut ++ byte.1 }

def start (highlightLeadingZeros : Bool) : Highlight :=
  ⟨[], [], false, false, highlightLeadingZeros⟩

def finish (mode : HighlightMode) (st : Highlight) : Text × Text :=
  let st := st.endLeadingZeroRun.endMismatchRun mode
  (st.actualOut, st.expectedOut)

end Highlight

/-- What a turn of the loop reads: the bytes `i..i + 2` of both texts. -/
def readPair (expected actual : Text) (i : Nat) : Option (Text × Text) := do
  let exp ← slice expected i (i + 2)
  let act ← slice actual i (i + 2)
  return (exp, act)

/-- The two rows; `none` where an assertion or a slice panics. -/
def highlightWithExpectedMode (expected actual : Text) (mode : HighlightMode)
    (highlightLeadingZeros : Bool) : Option (Text × Text) :=
  if byteLen expected ≠ byteLen actual then none
  else if byteLen expected % 2 ≠ 0 then none
  else do
    let st ← (List.range (byteLen actual / 2)).foldlM
      (fun st i => (readPair expected actual (2 * i)).map (Highlight.step mode st))
      (.start highlightLeadingZeros)
    return st.finish mode

/-! ### What is marked -/

/-- How a byte is shown. -/
inductive Shade where
  | mismatch
  | leadingZero
  | plain
  deriving DecidableEq, Repr

/-- The marks of the row of the actual text. -/
def actualMarks (mode : HighlightMode) : Marks Shade Char where
  opening
    | .mismatch => mode.actualStart
    | .leadingZero => LEADING_ZERO_ANSI_START
    | .plain => []
  closing
    | .mismatch => mode.stop
    | .leadingZero => ANSI_END
    | .plain => []

/-- The marks of the row of the expected text. -/
def expectedMarks (mode : HighlightMode) : Marks Shade Char where
  opening
    | .mismatch => mode.expectedStart
    | .leadingZero => []
    | .plain => []
  closing
    | .mismatch => mode.stop
    | .leadingZero => []
    | .plain => []

/-- The bytes with their shades: equal zeros at the front, where these are to be shown, and then
what differs and what does not. -/
def shaded (mode : HighlightMode) (highlightLeadingZeros : Bool) (bytes : List (Text × Text)) :
    List (Shade × Text × Text) :=
  let zeros :=
    if highlightLeadingZeros ∧ mode = .ansi then
      bytes.takeWhile fun byte => byte = (['0', '0'], ['0', '0'])
    else []
  zeros.map (.leadingZero, ·) ++
    (bytes.drop zeros.length).map fun byte =>
      (if byte.1 = byte.2 then .plain else .mismatch, byte)

/-- What the row of the actual text has for a byte. -/
def actualPiece (p : Shade × Text × Text) : Shade × Text := (p.1, p.2.2)

/-- What the row of the expected text has for a byte: blanks where it is that of the other row. -/
def expectedPiece (p : Shade × Text × Text) : Shade × Text :=
  (p.1, if p.1 = .mismatch then p.2.1 else [' ', ' '])

namespace Highlight

/-- The flags say in which run the loop is. -/
structure Inside (st : Highlight) (shade : Option Shade) : Prop where
  mismatch : st.inMismatchRun = decide (shade = some .mismatch)
  leadingZero : st.inLeadingZeroRun = decide (shade = some .leadingZero)

/-- The shade of the next byte. -/
def next (mode : HighlightMode) (still : Bool) (byte : Text × Text) : Shade :=
  if byte.1 = byte.2 then
    if still ∧ byte.1 = ['0', '0'] ∧ mode = .ansi then .leadingZero else .plain
  else .mismatch

/-- **One byte.** -/
theorem step_spec (mode : HighlightMode) {st : Highlight} {shade : Option Shade}
    (h : st.Inside shade) (byte : Text × Text) :
    (st.step mode byte).Inside (some (next mode st.stillLeadingZeros byte)) ∧
      (st.step mode byte).stillLeadingZeros =
        decide (next mode st.stillLeadingZeros byte = .leadingZero) ∧
      (st.step mode byte).actualOut = st.actualOut ++
        ((actualMarks mode).between shade (next mode st.stillLeadingZeros byte) ++ byte.2) ∧
      (st.step mode byte).expectedOut = st.expectedOut ++
        ((expectedMarks mode).between shade (next mode st.stillLeadingZeros byte) ++
          if next mode st.stillLeadingZeros byte = .mismatch then byte.1 else [' ', ' ']) := by
  obtain ⟨hmismatch, hzero⟩ := h
  by_cases hsame : byte.1 = byte.2
  · by_cases hleading : st.stillLeadingZeros ∧ byte.1 = ['0', '0'] ∧ mode = .ansi
    · have hnext : next mode st.stillLeadingZeros byte = .leadingZero := by
        rw [next, if_pos hsame, if_pos hleading]
      have hleading' : (st.endMismatchRun mode).stillLeadingZeros ∧ byte.1 = ['0', '0'] ∧
          mode = .ansi := by
        unfold endMismatchRun
        split <;> exact hleading
      rw [hnext, step, if_pos hsame]
      simp only [if_pos hleading']
      rcases shade with _ | _ | _ | _ <;>
        simp [endMismatchRun, hmismatch, hzero, Marks.between, actualMarks, expectedMarks,
          hleading.1] <;>
        constructor <;> simp
    · have hnext : next mode st.stillLeadingZeros byte = .plain := by
        rw [next, if_pos hsame, if_neg hleading]
      have hleading' : ¬ ((st.endMismatchRun mode).stillLeadingZeros ∧ byte.1 = ['0', '0'] ∧
          mode = .ansi) := by
        unfold endMismatchRun
        split <;> exact hleading
      rw [hnext, step, if_pos hsame]
      simp only [if_neg hleading']
      rcases shade with _ | _ | _ | _ <;>
        simp [endMismatchRun, endLeadingZeroRun, hmismatch, hzero, Marks.between, actualMarks,
          expectedMarks] <;>
        constructor <;> simp
  · have hnext : next mode st.stillLeadingZeros byte = .mismatch := by
      rw [next, if_neg hsame]
    rw [hnext, step, if_neg hsame]
    rcases shade with _ | _ | _ | _ <;>
      simp [endLeadingZeroRun, hmismatch, hzero, Marks.between, actualMarks, expectedMarks] <;>
      constructor <;> simp

theorem finish_spec {mode : HighlightMode} {st : Highlight} {shade : Option Shade}
    (h : st.Inside shade) : st.finish mode =
      (st.actualOut ++ (actualMarks mode).emit shade [],
        st.expectedOut ++ (expectedMarks mode).emit shade []) := by
  obtain ⟨hmismatch, hzero⟩ := h
  rcases shade with _ | _ | _ | _ <;>
    simp [finish, endLeadingZeroRun, endMismatchRun, hmismatch, hzero, Marks.emit, actualMarks,
      expectedMarks]

/-- The bytes with the shades the loop gives them. -/
def shadesFrom (mode : HighlightMode) : Bool → List (Text × Text) → List (Shade × Text × Text)
  | _, [] => []
  | still, byte :: bytes =>
    (next mode still byte, byte) :: shadesFrom mode (next mode still byte = .leadingZero) bytes

/-- **The loop writes the runs.** -/
theorem foldl_step (mode : HighlightMode) : ∀ (bytes : List (Text × Text)) {st : Highlight}
    {shade : Option Shade}, st.Inside shade →
    (bytes.foldl (step mode) st).finish mode =
      (st.actualOut ++ (actualMarks mode).emit shade
          ((shadesFrom mode st.stillLeadingZeros bytes).map actualPiece),
        st.expectedOut ++ (expectedMarks mode).emit shade
          ((shadesFrom mode st.stillLeadingZeros bytes).map expectedPiece))
  | [], st, shade, h => finish_spec h
  | byte :: bytes, st, shade, h => by
    obtain ⟨hinside, hstill, hactual, hexpected⟩ := step_spec mode h byte
    rw [List.foldl_cons, foldl_step mode bytes hinside, hstill, hactual, hexpected, shadesFrom,
      List.map_cons, List.map_cons, Marks.emit_cons, Marks.emit_cons]
    simp only [actualPiece, expectedPiece, List.append_assoc]

/-- After a byte that is no leading zero there is none. -/
theorem shadesFrom_cons {mode : HighlightMode} {flag : Bool} {byte : Text × Text}
    (bytes : List (Text × Text))
    (hnext : next mode flag byte = if byte.1 = byte.2 then .plain else .mismatch) :
    shadesFrom mode flag (byte :: bytes) =
      (if byte.1 = byte.2 then .plain else .mismatch, byte) :: shadesFrom mode false bytes := by
  have hstop : decide (next mode flag byte = .leadingZero) = false := by
    rw [hnext]
    split <;> rfl
  rw [shadesFrom, hstop, hnext]

theorem shadesFrom_false (mode : HighlightMode) : ∀ bytes : List (Text × Text),
    shadesFrom mode false bytes = bytes.map fun byte =>
      (if byte.1 = byte.2 then .plain else .mismatch, byte)
  | [] => rfl
  | byte :: bytes => by
    have hnext : next mode false byte = if byte.1 = byte.2 then .plain else .mismatch := by
      simp [next]
    rw [shadesFrom_cons bytes hnext, shadesFrom_false mode bytes, List.map_cons]

/-- Zeros are leading as long as all bytes before them are. -/
theorem shadesFrom_eq (mode : HighlightMode) (highlightLeadingZeros : Bool) :
    ∀ bytes : List (Text × Text),
      shadesFrom mode highlightLeadingZeros bytes = shaded mode highlightLeadingZeros bytes
  | [] => by simp [shadesFrom, shaded]
  | byte :: bytes => by
    by_cases hlead : (highlightLeadingZeros ∧ mode = .ansi) ∧ byte = (['0', '0'], ['0', '0'])
    · obtain ⟨⟨rfl, rfl⟩, rfl⟩ := hlead
      have ih := shadesFrom_eq .ansi true bytes
      rw [shadesFrom]
      simp [next, shaded, ih]
    · have hnext : next mode highlightLeadingZeros byte =
          if byte.1 = byte.2 then .plain else .mismatch := by
        unfold next
        by_cases hsame : byte.1 = byte.2
        · rw [if_pos hsame, if_pos hsame, if_neg]
          rintro ⟨hflag, hzero, hmode⟩
          exact hlead ⟨⟨hflag, hmode⟩, Prod.ext hzero (hsame ▸ hzero)⟩
        · rw [if_neg hsame, if_neg hsame]
      have hzeros : (if highlightLeadingZeros ∧ mode = .ansi then
          (byte :: bytes).takeWhile fun byte => byte = (['0', '0'], ['0', '0']) else []) = [] := by
        split
        · rename_i hshow
          exact List.takeWhile_cons_of_neg (by simpa using fun h => hlead ⟨hshow, h⟩)
        · rfl
      rw [shadesFrom_cons bytes hnext, shadesFrom_false, shaded, hzeros]
      rfl

end Highlight

/-- The two rows of the loop over given pieces. -/
def rowsOf (mode : HighlightMode) (highlightLeadingZeros : Bool) (bytes : List (Text × Text)) :
    Text × Text :=
  (bytes.foldl (Highlight.step mode) (.start highlightLeadingZeros)).finish mode

theorem rowsOf_eq (mode : HighlightMode) (highlightLeadingZeros : Bool)
    (bytes : List (Text × Text)) : rowsOf mode highlightLeadingZeros bytes =
      ((actualMarks mode).emit none ((shaded mode highlightLeadingZeros bytes).map actualPiece),
        (expectedMarks mode).emit none
          ((shaded mode highlightLeadingZeros bytes).map expectedPiece)) := by
  have hinside : (Highlight.start highlightLeadingZeros).Inside none := ⟨rfl, rfl⟩
  rw [rowsOf, Highlight.foldl_step mode _ hinside, Highlight.shadesFrom_eq]
  rfl

/-- What the loop reads: both texts, cut into pieces of two bytes. -/
theorem forall₂_readPair {expected actual : Text} {n : Nat} (hexpected : byteLen expected = 2 * n)
    (hactual : byteLen actual = 2 * n) {bytes : List (Text × Text)} :
    List.Forall₂ (fun i byte => readPair expected actual (2 * i) = some byte) (List.range n) bytes ↔
      Cuts 2 expected (bytes.map Prod.fst) ∧ Cuts 2 actual (bytes.map Prod.snd) ∧
        bytes.length = n := by
  have hread : ∀ i (byte : Text × Text), readPair expected actual i = some byte ↔
      slice expected i (i + 2) = some byte.1 ∧ slice actual i (i + 2) = some byte.2 := by
    intro i byte
    simp [readPair, Option.bind_eq_some_iff, Prod.ext_iff, and_left_comm]
  have hfirst := forall₂_slice_iff (bytes.map Prod.fst) hexpected
  have hsecond := forall₂_slice_iff (bytes.map Prod.snd) hactual
  rw [List.forall₂_map_right_iff, List.length_map] at hfirst hsecond
  constructor
  · intro h
    obtain ⟨hcuts, hlength⟩ := hfirst.1 (h.imp fun _ _ hbyte => ((hread _ _).1 hbyte).1)
    obtain ⟨hcuts', -⟩ := hsecond.1 (h.imp fun _ _ hbyte => ((hread _ _).1 hbyte).2)
    exact ⟨hcuts, hcuts', hlength⟩
  · rintro ⟨hcuts, hcuts', hlength⟩
    exact List.Forall₂.mp (fun _ _ hexp hact => (hread _ _).2 ⟨hexp, hact⟩)
      (hfirst.2 ⟨hcuts, hlength⟩) (hsecond.2 ⟨hcuts', hlength⟩)

/-- The loop runs to its end exactly on texts that can be cut into as many pieces of two bytes. -/
theorem highlightWithExpectedMode_eq_some {expected actual : Text} {mode : HighlightMode}
    {highlightLeadingZeros : Bool} {rows : Text × Text} :
    highlightWithExpectedMode expected actual mode highlightLeadingZeros = some rows ↔
      ∃ bytes : List (Text × Text), Cuts 2 expected (bytes.map Prod.fst) ∧
        Cuts 2 actual (bytes.map Prod.snd) ∧ rows = rowsOf mode highlightLeadingZeros bytes := by
  unfold highlightWithExpectedMode
  constructor
  · intro h
    split at h
    · cases h
    split at h
    · cases h
    rename_i hlen heven
    obtain ⟨n, hn⟩ : ∃ n, byteLen actual = 2 * n := ⟨byteLen actual / 2, by omega⟩
    rw [Option.bind_eq_bind, Option.bind_eq_some_iff] at h
    obtain ⟨st, hst, hrows⟩ := h
    obtain ⟨bytes, hbytes, rfl⟩ := foldlM_map_eq_some.1 hst
    rw [hn, Nat.mul_div_cancel_left n (by decide),
      forall₂_readPair ((not_not.1 hlen).trans hn) hn] at hbytes
    exact ⟨bytes, hbytes.1, hbytes.2.1, (Option.some.inj hrows).symm⟩
  · rintro ⟨bytes, hexpected, hactual, rfl⟩
    have hlen := hexpected.byteLen_eq
    have hlen' := hactual.byteLen_eq
    rw [List.length_map] at hlen hlen'
    rw [if_neg (by omega), if_neg (by omega), hlen', Nat.mul_div_cancel_left _ (by decide),
      Option.bind_eq_bind, Option.bind_eq_some_iff]
    exact ⟨_, foldlM_map_eq_some.2
      ⟨bytes, (forall₂_readPair hlen hlen').2 ⟨hexpected, hactual, rfl⟩, rfl⟩, rfl⟩

/-- **What is marked.**  The rows are written exactly if both texts can be cut into pieces of two
bytes, as many of one as of the other, and then each shows the maximal runs of one shade between
the marks of this shade; on other texts an assertion or a slice panics. -/
theorem highlightWithExpectedMode_iff (expected actual : Text) (mode : HighlightMode)
    (highlightLeadingZeros : Bool) (rows : Text × Text) :
    highlightWithExpectedMode expected actual mode highlightLeadingZeros = some rows ↔
      ∃ bytes : List (Text × Text), Cuts 2 expected (bytes.map Prod.fst) ∧
        Cuts 2 actual (bytes.map Prod.snd) ∧
        rows = ((actualMarks mode).render
            ((shaded mode highlightLeadingZeros bytes).map actualPiece),
          (expectedMarks mode).render
            ((shaded mode highlightLeadingZeros bytes).map expectedPiece)) := by
  simp only [highlightWithExpectedMode_eq_some, rowsOf_eq, Marks.emit_none]

example : highlightWithExpectedMode "00000102".toList "00000002".toList .ansi true =
    some ("\x1b[97m0000\x1b[0m\x1b[31m00\x1b[0m02".toList,
      "    \x1b[32m01\x1b[0m  ".toList) := by decide

/-- Six bytes, but the first slice of two ends inside a character. -/
example : highlightWithExpectedMode "a\u00e9\u00e9a".toList "a\u00e9\u00e9a".toList .ansi false =
    none := by decide

/-! ### Reading the rows -/

/-- A row without its marks; the flag says that an escape sequence is open. -/
def unhighlight : Bool → Text → Text
  | _, [] => []
  | true, c :: row => unhighlight (c ≠ 'm') row
  | false, c :: row =>
    if c = '\x1b' then unhighlight true row
    else if c = '[' ∨ c = ']' then unhighlight false row
    else c :: unhighlight false row

/-- A character of one byte that no mark has. -/
def IsPlain (c : Char) : Prop := c ≠ '\x1b' ∧ c ≠ '[' ∧ c ≠ ']' ∧ c ≠ '\n' ∧ c.utf8Size = 1

theorem reads_plain : ∀ {text : Text}, (∀ c ∈ text, IsPlain c) →
    Runs.Reads (unhighlight false) text text
  | [], _ => .nil _
  | c :: text, h => fun rest => by
    obtain ⟨hescape, hopen, hclose, -⟩ := h c List.mem_cons_self
    have ih := reads_plain (fun d hd => h d (List.mem_cons_of_mem _ hd)) rest
    rw [List.cons_append, unhighlight, if_neg hescape, if_neg (not_or.2 ⟨hopen, hclose⟩), ih]
    rfl

theorem reads_marks (mode : HighlightMode) (shade : Shade) :
    Runs.Reads (unhighlight false) ((actualMarks mode).opening shade) [] ∧
      Runs.Reads (unhighlight false) ((actualMarks mode).closing shade) [] := by
  cases mode <;> cases shade <;> exact ⟨fun _ => rfl, fun _ => rfl⟩

theorem newline_notMem_marks (mode : HighlightMode) (shade : Shade) :
    '\n' ∉ (actualMarks mode).opening shade ∧ '\n' ∉ (actualMarks mode).closing shade ∧
      '\n' ∉ (expectedMarks mode).opening shade ∧ '\n' ∉ (expectedMarks mode).closing shade := by
  cases mode <;> cases shade <;> decide

theorem map_snd_shaded (mode : HighlightMode) (highlightLeadingZeros : Bool)
    (bytes : List (Text × Text)) :
    (shaded mode highlightLeadingZeros bytes).map Prod.snd = bytes := by
  have hzeros : (if highlightLeadingZeros ∧ mode = .ansi then
      bytes.takeWhile fun byte => byte = (['0', '0'], ['0', '0']) else []) <+: bytes := by
    split
    · exact List.takeWhile_prefix _
    · exact List.nil_prefix
  unfold shaded
  simp only [List.map_append, List.map_map, Function.comp_def, List.map_id']
  exact List.prefix_iff_eq_append.1 hzeros

/-- A text of a given length without marks and line breaks, all of one-byte characters. -/
structure PlainText (n : Nat) (text : Text) : Prop where
  length : text.length = n
  plain : ∀ c ∈ text, IsPlain c

/-- The pieces of two texts of one-byte characters. -/
def bytePairs (expected actual : Text) : List (Text × Text) :=
  (List.range (actual.length / 2)).map fun i =>
    ((expected.drop (2 * i)).take 2, (actual.drop (2 * i)).take 2)

/-- The rows of two texts of one-byte characters. -/
def highlightRows (mode : HighlightMode) (highlightLeadingZeros : Bool) (expected actual : Text) :
    Text × Text :=
  rowsOf mode highlightLeadingZeros (bytePairs expected actual)

theorem highlightRows_eq (mode : HighlightMode) (highlightLeadingZeros : Bool)
    (expected actual : Text) : highlightRows mode highlightLeadingZeros expected actual =
      ((actualMarks mode).emit none
          ((shaded mode highlightLeadingZeros (bytePairs expected actual)).map actualPiece),
        (expectedMarks mode).emit none
          ((shaded mode highlightLeadingZeros (bytePairs expected actual)).map expectedPiece)) :=
  rowsOf_eq mode highlightLeadingZeros _

/-- Two consecutive characters at a time, a text of even length is read to its end. -/
theorem flatMap_bytes : ∀ {text : Text}, text.length % 2 = 0 →
    (List.range (text.length / 2)).flatMap (fun i => (text.drop (2 * i)).take 2) = text
  | [], _ => rfl
  | [c], h => by simp at h
  | c :: d :: text, h => by
    have heven : text.length % 2 = 0 := by
      simp only [List.length_cons] at h
      omega
    have hhalf : (c :: d :: text).length / 2 = text.length / 2 + 1 := by
      simp only [List.length_cons]
      omega
    have ih := flatMap_bytes heven
    rw [hhalf, List.range_succ_eq_map, List.flatMap_cons, List.flatMap_map]
    simpa [Nat.mul_add] using ih

theorem PlainText.byteLen_eq {n : Nat} {text : Text} (h : PlainText n text) : byteLen text = n :=
  (byteLen_of_ascii fun c hc => (h.plain c hc).2.2.2.2).trans h.length

theorem PlainText.slice_eq {n lo hi : Nat} {text : Text} (h : PlainText n text) (hlo : lo ≤ hi)
    (hhi : hi ≤ n) : slice text lo hi = some ((text.take hi).drop lo) :=
  slice_of_ascii (fun c hc => (h.plain c hc).2.2.2.2) hlo (h.length ▸ hhi)

/-- A text of one-byte characters is cut two characters at a time. -/
theorem PlainText.cuts {n : Nat} {text : Text} (h : PlainText n text) (heven : n % 2 = 0) :
    Cuts 2 text ((List.range (n / 2)).map fun i => (text.drop (2 * i)).take 2) := by
  refine ⟨?_, fun piece hpiece => ?_⟩
  · have hall : (List.range (text.length / 2)).flatMap (fun i => (text.drop (2 * i)).take 2) =
        text := flatMap_bytes (h.length ▸ heven)
    rw [h.length] at hall
    exact hall
  · obtain ⟨i, hi, rfl⟩ := List.mem_map.1 hpiece
    have hlt := List.mem_range.1 hi
    rw [byteLen_of_ascii fun c hc => (h.plain c
      (List.mem_of_mem_drop (List.mem_of_mem_take hc))).2.2.2.2, List.length_take,
      List.length_drop, h.length]
    omega

theorem highlightWithExpectedMode_plain {n : Nat} {expected actual : Text} (heven : n % 2 = 0)
    (hactual : PlainText n actual) (hexpected : PlainText n expected) (mode : HighlightMode)
    (highlightLeadingZeros : Bool) :
    highlightWithExpectedMode expected actual mode highlightLeadingZeros =
      some (highlightRows mode highlightLeadingZeros expected actual) := by
  refine highlightWithExpectedMode_eq_some.2 ⟨bytePairs expected actual, ?_, ?_, rfl⟩
  · rw [bytePairs, hactual.length, List.map_map]
    exact hexpected.cuts heven
  · rw [bytePairs, hactual.length, List.map_map]
    exact hactual.cuts heven

section Rows

variable {n : Nat} {expected actual : Text} (hactual : PlainText n actual)
  (hexpected : PlainText n expected) (mode : HighlightMode) (highlightLeadingZeros : Bool)

include hactual hexpected

theorem plain_of_mem_bytePairs {byte : Text × Text} (h : byte ∈ bytePairs expected actual) :
    (∀ c ∈ byte.1, IsPlain c) ∧ ∀ c ∈ byte.2, IsPlain c := by
  obtain ⟨i, -, rfl⟩ := List.mem_map.1 h
  exact ⟨fun c hc => hexpected.plain c (List.mem_of_mem_drop (List.mem_of_mem_take hc)),
    fun c hc => hactual.plain c (List.mem_of_mem_drop (List.mem_of_mem_take hc))⟩

/-- **Without its marks, the row of the actual text is this text.** -/
theorem unhighlight_actualRow (heven : n % 2 = 0) :
    unhighlight false (highlightRows mode highlightLeadingZeros expected actual).1 = actual := by
  have hreads := Marks.reads_emit (fun shade => (reads_marks mode shade).1)
    (fun shade => (reads_marks mode shade).2) Prod.snd
    ((shaded mode highlightLeadingZeros (bytePairs expected actual)).map actualPiece) none
    fun piece hpiece => by
      obtain ⟨p, hp, rfl⟩ := List.mem_map.1 hpiece
      have hbyte := List.mem_map_of_mem (f := Prod.snd) hp
      rw [map_snd_shaded] at hbyte
      exact reads_plain (plain_of_mem_bytePairs hactual hexpected hbyte).2
  have hrow := hreads []
  rw [List.append_nil] at hrow
  have hbytes : ((shaded mode highlightLeadingZeros (bytePairs expected actual)).map
      actualPiece).flatMap Prod.snd = (bytePairs expected actual).flatMap Prod.snd := by
    rw [← map_snd_shaded mode highlightLeadingZeros (bytePairs expected actual),
      List.flatMap_map, List.flatMap_map, map_snd_shaded]
    rfl
  rw [highlightRows_eq, hrow, hbytes, bytePairs, List.flatMap_map]
  exact (List.append_nil _).trans (flatMap_bytes (hactual.length ▸ heven))

/-- Neither row breaks the line. -/
theorem newline_notMem_rows :
    '\n' ∉ (highlightRows mode highlightLeadingZeros expected actual).1 ∧
      '\n' ∉ (highlightRows mode highlightLeadingZeros expected actual).2 := by
  have hshaded : ∀ p ∈ shaded mode highlightLeadingZeros (bytePairs expected actual),
      (∀ c ∈ p.2.1, IsPlain c) ∧ ∀ c ∈ p.2.2, IsPlain c := by
    intro p hp
    have hbyte := List.mem_map_of_mem (f := Prod.snd) hp
    rw [map_snd_shaded] at hbyte
    exact plain_of_mem_bytePairs hactual hexpected hbyte
  have hne : ∀ {text : Text}, '\n' ∉ text → ∀ c ∈ text, c ≠ '\n' := fun h c hc he => h (he ▸ hc)
  rw [highlightRows_eq]
  refine ⟨fun h => Marks.forall_mem_emit (fun shade => hne (newline_notMem_marks mode shade).1)
    (fun shade => hne (newline_notMem_marks mode shade).2.1) _ none ?_ _ h rfl,
    fun h => Marks.forall_mem_emit (fun shade => hne (newline_notMem_marks mode shade).2.2.1)
      (fun shade => hne (newline_notMem_marks mode shade).2.2.2) _ none ?_ _ h rfl⟩
  · intro piece hpiece c hc
    obtain ⟨p, hp, rfl⟩ := List.mem_map.1 hpiece
    exact ((hshaded p hp).2 c hc).2.2.2.1
  · intro piece hpiece c hc
    obtain ⟨p, hp, rfl⟩ := List.mem_map.1 hpiece
    unfold expectedPiece at hc
    split at hc
    · exact ((hshaded p hp).1 c hc).2.2.2.1
    · rintro rfl
      simp at hc

end Rows

/-! ## Claims in hexadecimal -/

def displayHex32 (bytes : Bytes32) : Text := (hexEncode bytes.toList.reverse).toList

def genesisHashDisplayHex (claim : Claim) : Text := displayHex32 claim.genesisHash
def tipHashDisplayHex (claim : Claim) : Text := displayHex32 claim.tipHash
def chainWorkDisplayHex (claim : Claim) : Text := displayHex32 claim.chainWork.toLeBytes

/-- The big-endian bytes of the height. -/
def heightDisplayHex (claim : Claim) : Text :=
  (hexEncode (Codec.u32.enc claim.height).reverse).toList

theorem toList_hexEncode (bytes : Bytes) : (hexEncode bytes).toList =
    bytes.flatMap fun b => [(b.toNat / 16).digitChar, (b.toNat % 16).digitChar] :=
  String.toList_ofList

theorem hexDigit_digitChar : ∀ digit < 16, hexDigit digit.digitChar = some digit := by decide

theorem isPlain_digitChar : ∀ digit < 16, IsPlain digit.digitChar := by
  unfold IsPlain
  decide

theorem hexDecode_hexEncode (bytes : Bytes) : hexDecode (hexEncode bytes).toList = some bytes := by
  rw [toList_hexEncode]
  induction bytes with
  | nil => rfl
  | cons b bytes ih =>
    have hb := b.toNat_lt
    have hhigh := hexDigit_digitChar (b.toNat / 16) (by omega)
    have hlow := hexDigit_digitChar (b.toNat % 16) (by omega)
    have hbyte : 16 * (b.toNat / 16) + b.toNat % 16 = b.toNat := Nat.div_add_mod _ _
    rw [List.flatMap_cons, List.cons_append, List.cons_append, List.nil_append, hexDecode, hhigh,
      hlow, ih]
    show some (UInt8.ofNat (16 * (b.toNat / 16) + b.toNat % 16) :: bytes) = some (b :: bytes)
    rw [hbyte, UInt8.ofNat_toNat]

theorem hexEncode_inj {bytes bytes' : Bytes}
    (h : (hexEncode bytes).toList = (hexEncode bytes').toList) : bytes = bytes' := by
  have hdecoded := hexDecode_hexEncode bytes
  rw [h, hexDecode_hexEncode] at hdecoded
  exact (Option.some.inj hdecoded).symm

theorem plainText_hexEncode {bytes : Bytes} {n : Nat} (h : bytes.length * 2 = n) :
    PlainText n (hexEncode bytes).toList where
  length := by
    rw [toList_hexEncode, List.length_flatMap]
    simpa using h
  plain c hc := by
    rw [toList_hexEncode] at hc
    obtain ⟨b, -, hb⟩ := List.mem_flatMap.1 hc
    have hlt := b.toNat_lt
    rcases List.mem_cons.1 hb with rfl | hb
    · exact isPlain_digitChar _ (by omega)
    · rw [List.mem_singleton.1 hb]
      exact isPlain_digitChar _ (by omega)

theorem displayHex32_inj {bytes bytes' : Bytes32} (h : displayHex32 bytes = displayHex32 bytes') :
    bytes = bytes' :=
  Vector.toList_inj.1 (List.reverse_injective (hexEncode_inj h))

theorem plainText_displayHex32 (bytes : Bytes32) : PlainText 64 (displayHex32 bytes) :=
  plainText_hexEncode (by simp)

theorem plainText_genesisHashDisplayHex (claim : Claim) :
    PlainText 64 (genesisHashDisplayHex claim) := plainText_displayHex32 _

theorem plainText_tipHashDisplayHex (claim : Claim) :
    PlainText 64 (tipHashDisplayHex claim) := plainText_displayHex32 _

theorem plainText_chainWorkDisplayHex (claim : Claim) :
    PlainText 64 (chainWorkDisplayHex claim) := plainText_displayHex32 _

theorem plainText_heightDisplayHex (claim : Claim) : PlainText 8 (heightDisplayHex claim) :=
  plainText_hexEncode (by rw [List.length_reverse, Codec.u32.enc_length]; rfl)

/-- The four texts are those of one claim. -/
theorem eq_of_displayHex {claim claim' : Claim}
    (hgenesis : genesisHashDisplayHex claim = genesisHashDisplayHex claim')
    (htip : tipHashDisplayHex claim = tipHashDisplayHex claim')
    (hwork : chainWorkDisplayHex claim = chainWorkDisplayHex claim')
    (hheight : heightDisplayHex claim = heightDisplayHex claim') : claim = claim' := by
  have hgenesis' := displayHex32_inj hgenesis
  have htip' := displayHex32_inj htip
  have hheight' := Codec.u32.enc_inj (List.reverse_injective (hexEncode_inj hheight))
  have hwork' : claim.chainWork = claim'.chainWork := by
    rw [← U256.fromLeBytes_toLeBytes claim.chainWork, displayHex32_inj hwork,
      U256.fromLeBytes_toLeBytes]
  cases claim
  cases claim'
  simp only [Claim.mk.injEq]
  exact ⟨hgenesis', htip', hwork', hheight'⟩

/-! ## The report -/

def fieldPrefix (name : Text) : Text := List.replicate 6 ' ' ++ name ++ [':', ' ']

def valuePrefix (name : Text) : Text :=
  List.replicate 6 ' ' ++ List.replicate (byteLen name) ' ' ++ [' ', ' ']

def pushClaimField (output name value : Text) : Option Text :=
  if byteLen value = 64 then do
    let first ← slice value 0 32
    let second ← slice value 32 (byteLen value)
    return output ++ fieldPrefix name ++ first ++ ['\n'] ++ valuePrefix name ++ second ++
      [',', '\n']
  else some (output ++ fieldPrefix name ++ value ++ [',', '\n'])

def formatClaimPretty (claim : Claim) : Option Text := do
  let output := "    Claim \x7b\n".toList
  let output ← pushClaimField output "genesis_hash".toList (genesisHashDisplayHex claim)
  let output ← pushClaimField output "tip_hash".toList (tipHashDisplayHex claim)
  let output ← pushClaimField output "chain_work".toList (chainWorkDisplayHex claim)
  let output ← pushClaimField output "height".toList (heightDisplayHex claim)
  return output ++ "    \x7d".toList

def pushWideClaimMismatchField (output name actual expected : Text) (mode : HighlightMode) :
    Option Text := do
  let firstActual ← slice actual 0 32
  let firstExpected ← slice expected 0 32
  let secondActual ← slice actual 32 (byteLen actual)
  let secondExpected ← slice expected 32 (byteLen expected)
  let firstMismatch := decide (firstActual ≠ firstExpected)
  let secondMismatch := decide (secondActual ≠ secondExpected)
  let hasMismatch := firstMismatch || secondMismatch
  let first ← highlightWithExpectedMode firstExpected firstActual mode false
  let second ← highlightWithExpectedMode secondExpected secondActual mode false
  let output := output ++ fieldPrefix name ++ first.1 ++ ['\n']
  let output :=
    if firstMismatch then output ++ valuePrefix name ++ first.2 ++ ['\n'] else output
  let output := if hasMismatch then output ++ ['\n'] else output
  let output := output ++ valuePrefix name ++ second.1 ++ [',', '\n']
  return if secondMismatch then output ++ valuePrefix name ++ second.2 ++ ['\n'] else output

def pushClaimMismatchField (output name actual expected : Text) (mode : HighlightMode) :
    Option Text :=
  if byteLen actual = 64 then pushWideClaimMismatchField output name actual expected mode
  else do
    let hasMismatch := decide (actual ≠ expected)
    let rows ← highlightWithExpectedMode expected actual mode (byteLen actual = 8)
    let output := output ++ fieldPrefix name ++ rows.1 ++ [',', '\n']
    return if hasMismatch then output ++ valuePrefix name ++ rows.2 ++ ['\n'] else output

/-- The report; `none` where the code panics. -/
def formatClaimMismatchWithMode (actual expected : Claim) (mode : HighlightMode) :
    Option Text := do
  let output := "  actual claim:\n".toList ++ "    Claim \x7b\n".toList
  let output ← pushClaimMismatchField output "genesis_hash".toList
    (genesisHashDisplayHex actual) (genesisHashDisplayHex expected) mode
  let output ← pushClaimMismatchField output "tip_hash".toList
    (tipHashDisplayHex actual) (tipHashDisplayHex expected) mode
  let output ← pushClaimMismatchField output "chain_work".toList
    (chainWorkDisplayHex actual) (chainWorkDisplayHex expected) mode
  let output ← pushClaimMismatchField output "height".toList
    (heightDisplayHex actual) (heightDisplayHex expected) mode
  let pretty ← formatClaimPretty expected
  return output ++ "    \x7d\n".toList ++ "  expected claim:\n".toList ++ pretty

/-! ### Its lines -/

/-- The lines of a field of the expected claim. -/
def fieldLines (name value : Text) : List Text :=
  if value.length = 64 then
    [fieldPrefix name ++ value.take 32, valuePrefix name ++ value.drop 32 ++ [',']]
  else [fieldPrefix name ++ value ++ [',']]

/-- A line that ends with a text, and under it what was expected if that is something else. -/
def correctedLines (mode : HighlightMode) (highlightLeadingZeros : Bool)
    (start name actual expected : Text) : List Text :=
  let rows := highlightRows mode highlightLeadingZeros expected actual
  (start ++ (rows.1 ++ [','])) ::
    if actual = expected then [] else [valuePrefix name ++ rows.2]

/-- The lines of a field of two halves, with an empty line between those of different texts. -/
def wideLines (mode : HighlightMode) (name actual expected : Text) : List Text :=
  let first := highlightRows mode false (expected.take 32) (actual.take 32)
  (fieldPrefix name ++ first.1) ::
    ((if actual.take 32 = expected.take 32 then [] else [valuePrefix name ++ first.2]) ++
    ((if actual.take 32 = expected.take 32 ∧ actual.drop 32 = expected.drop 32 then [] else [[]]) ++
    correctedLines mode false (valuePrefix name) name (actual.drop 32) (expected.drop 32)))

/-- The lines of a field of one part. -/
def narrowLines (mode : HighlightMode) (name actual expected : Text) : List Text :=
  correctedLines mode (actual.length = 8) (fieldPrefix name) name actual expected

def actualLines (mode : HighlightMode) (actual expected : Claim) : List Text :=
  wideLines mode "genesis_hash".toList (genesisHashDisplayHex actual)
    (genesisHashDisplayHex expected) ++
  (wideLines mode "tip_hash".toList (tipHashDisplayHex actual) (tipHashDisplayHex expected) ++
  (wideLines mode "chain_work".toList (chainWorkDisplayHex actual)
    (chainWorkDisplayHex expected) ++
  narrowLines mode "height".toList (heightDisplayHex actual) (heightDisplayHex expected)))

def expectedLines (expected : Claim) : List Text :=
  ["    \x7d".toList, "  expected claim:".toList, "    Claim \x7b".toList] ++
  (fieldLines "genesis_hash".toList (genesisHashDisplayHex expected) ++
  (fieldLines "tip_hash".toList (tipHashDisplayHex expected) ++
  (fieldLines "chain_work".toList (chainWorkDisplayHex expected) ++
  fieldLines "height".toList (heightDisplayHex expected))))

/-- The lines of the report but for the last. -/
def reportLines (mode : HighlightMode) (actual expected : Claim) : List Text :=
  ["  actual claim:".toList, "    Claim \x7b".toList] ++
    (actualLines mode actual expected ++ expectedLines expected)

theorem PlainText.newline_notMem {n : Nat} {text : Text} (h : PlainText n text) : '\n' ∉ text :=
  fun hmem => (h.plain _ hmem).2.2.2.1 rfl

theorem PlainText.take {text : Text} (h : PlainText 64 text) : PlainText 32 (text.take 32) :=
  ⟨by rw [List.length_take, h.length]; rfl, fun c hc => h.plain c (List.mem_of_mem_take hc)⟩

theorem PlainText.drop {text : Text} (h : PlainText 64 text) : PlainText 32 (text.drop 32) :=
  ⟨by rw [List.length_drop, h.length], fun c hc => h.plain c (List.mem_of_mem_drop hc)⟩

/-- The two halves of a field of 64 bytes. -/
theorem PlainText.halves {text : Text} (h : PlainText 64 text) :
    slice text 0 32 = some (text.take 32) ∧
      slice text 32 (byteLen text) = some (text.drop 32) := by
  constructor
  · exact h.slice_eq (by decide) (by decide)
  · rw [h.byteLen_eq, h.slice_eq (by decide) (by decide), List.take_of_length_le h.length.le]

theorem pushWideClaimMismatchField_eq (output name : Text) {actual expected : Text}
    (hactual : PlainText 64 actual) (hexpected : PlainText 64 expected) (mode : HighlightMode) :
    pushWideClaimMismatchField output name actual expected mode =
      some (output ++ unlines '\n' (wideLines mode name actual expected)) := by
  unfold pushWideClaimMismatchField
  rw [hactual.halves.1, hexpected.halves.1, hactual.halves.2, hexpected.halves.2]
  simp only [Option.bind_eq_bind, Option.bind_some]
  rw [highlightWithExpectedMode_plain (by decide) hactual.take hexpected.take,
    highlightWithExpectedMode_plain (by decide) hactual.drop hexpected.drop]
  simp only [Option.bind_some, wideLines, correctedLines]
  by_cases h₁ : actual.take 32 = expected.take 32
  · by_cases h₂ : actual.drop 32 = expected.drop 32
    · simp [h₁, h₂, unlines]
    · simp [h₁, h₂, unlines]
  · by_cases h₂ : actual.drop 32 = expected.drop 32
    · simp [h₁, h₂, unlines]
    · simp [h₁, h₂, unlines]

theorem pushClaimMismatchField_wide (output name : Text) {actual expected : Text}
    (hactual : PlainText 64 actual) (hexpected : PlainText 64 expected) (mode : HighlightMode) :
    pushClaimMismatchField output name actual expected mode =
      some (output ++ unlines '\n' (wideLines mode name actual expected)) := by
  rw [pushClaimMismatchField, if_pos hactual.byteLen_eq]
  exact pushWideClaimMismatchField_eq output name hactual hexpected mode

theorem pushClaimMismatchField_narrow (output name : Text) {actual expected : Text}
    (hactual : PlainText 8 actual) (hexpected : PlainText 8 expected) (mode : HighlightMode) :
    pushClaimMismatchField output name actual expected mode =
      some (output ++ unlines '\n' (narrowLines mode name actual expected)) := by
  have hzeros : decide (byteLen actual = 8) = decide (actual.length = 8) := by
    rw [hactual.byteLen_eq, hactual.length]
  rw [pushClaimMismatchField, if_neg (by rw [hactual.byteLen_eq]; decide), hzeros,
    highlightWithExpectedMode_plain (by decide) hactual hexpected]
  by_cases h : actual = expected
  · simp [narrowLines, correctedLines, h, unlines]
  · simp [narrowLines, correctedLines, h, unlines]

theorem pushClaimField_wide (output name : Text) {value : Text} (h : PlainText 64 value) :
    pushClaimField output name value = some (output ++ unlines '\n' (fieldLines name value)) := by
  rw [pushClaimField, if_pos h.byteLen_eq, fieldLines, if_pos h.length, h.halves.1, h.halves.2]
  simp [unlines]

theorem pushClaimField_narrow (output name : Text) {value : Text} (h : PlainText 8 value) :
    pushClaimField output name value = some (output ++ unlines '\n' (fieldLines name value)) := by
  rw [pushClaimField, if_neg (by rw [h.byteLen_eq]; decide), fieldLines,
    if_neg (by rw [h.length]; decide)]
  simp [unlines]

/-- **The report is its lines.** -/
theorem formatClaimMismatchWithMode_eq (actual expected : Claim) (mode : HighlightMode) :
    formatClaimMismatchWithMode actual expected mode =
      some (unlines '\n' (reportLines mode actual expected) ++ "    \x7d".toList) := by
  have hgenesis := plainText_genesisHashDisplayHex
  have htip := plainText_tipHashDisplayHex
  have hwork := plainText_chainWorkDisplayHex
  have hheight := plainText_heightDisplayHex
  unfold formatClaimMismatchWithMode formatClaimPretty
  simp only [Option.bind_eq_bind]
  rw [pushClaimMismatchField_wide _ _ (hgenesis _) (hgenesis _), Option.bind_some,
    pushClaimMismatchField_wide _ _ (htip _) (htip _), Option.bind_some,
    pushClaimMismatchField_wide _ _ (hwork _) (hwork _), Option.bind_some,
    pushClaimMismatchField_narrow _ _ (hheight _) (hheight _), Option.bind_some,
    pushClaimField_wide _ _ (hgenesis _), Option.bind_some,
    pushClaimField_wide _ _ (htip _), Option.bind_some,
    pushClaimField_wide _ _ (hwork _), Option.bind_some,
    pushClaimField_narrow _ _ (hheight _), Option.bind_some]
  simp only [Option.pure_def, Option.bind_some, reportLines, actualLines, expectedLines,
    unlines_append, List.append_assoc]
  rfl

theorem newline_notMem_fieldPrefix {name : Text} (h : '\n' ∉ name) :
    '\n' ∉ fieldPrefix name := by
  simp [fieldPrefix, h]

theorem newline_notMem_valuePrefix (name : Text) : '\n' ∉ valuePrefix name := by
  simp [valuePrefix]

section Lines

variable {name actual expected : Text}

theorem newline_notMem_fieldLines {n : Nat} (hname : '\n' ∉ name) (h : PlainText n actual) :
    ∀ line ∈ fieldLines name actual, '\n' ∉ line := by
  have hfield := newline_notMem_fieldPrefix hname
  have hvalue := newline_notMem_valuePrefix name
  have htext := h.newline_notMem
  have htake : '\n' ∉ actual.take 32 := fun hmem => htext (List.mem_of_mem_take hmem)
  have hdrop : '\n' ∉ actual.drop 32 := fun hmem => htext (List.mem_of_mem_drop hmem)
  unfold fieldLines
  split <;> simp [hfield, hvalue, htext, htake, hdrop]

theorem newline_notMem_correctedLines {n : Nat} {start : Text} (hstart : '\n' ∉ start)
    (hactual : PlainText n actual) (hexpected : PlainText n expected) (mode : HighlightMode)
    (highlightLeadingZeros : Bool) :
    ∀ line ∈ correctedLines mode highlightLeadingZeros start name actual expected,
      '\n' ∉ line := by
  have hvalue := newline_notMem_valuePrefix name
  have hrows := newline_notMem_rows hactual hexpected mode highlightLeadingZeros
  intro line hline
  rcases List.mem_cons.1 hline with rfl | hline
  · simp [hstart, hrows.1]
  · split at hline
    · cases hline
    · rw [List.mem_singleton.1 hline]
      simp [hvalue, hrows.2]

theorem newline_notMem_wideLines (hname : '\n' ∉ name) (hactual : PlainText 64 actual)
    (hexpected : PlainText 64 expected) (mode : HighlightMode) :
    ∀ line ∈ wideLines mode name actual expected, '\n' ∉ line := by
  have hfield := newline_notMem_fieldPrefix hname
  have hvalue := newline_notMem_valuePrefix name
  have hfirst := newline_notMem_rows hactual.take hexpected.take mode false
  intro line hline
  simp only [wideLines, List.mem_cons, List.mem_append] at hline
  rcases hline with rfl | hline | hline | hline
  · simp [hfield, hfirst.1]
  · split at hline
    · cases hline
    · rw [List.mem_singleton.1 hline]
      simp [hvalue, hfirst.2]
  · split at hline
    · cases hline
    · rw [List.mem_singleton.1 hline]
      exact List.not_mem_nil
  · exact newline_notMem_correctedLines hvalue hactual.drop hexpected.drop mode false line hline

/-- A line and its correction, and so their text, are those of one text. -/
theorem correctedLines_inj {n : Nat} (heven : n % 2 = 0) {start actual' : Text}
    {rest rest' : List Text} {mode mode' : HighlightMode} {zeros zeros' : Bool}
    (hactual : PlainText n actual) (hactual' : PlainText n actual')
    (hexpected : PlainText n expected)
    (h : correctedLines mode zeros start name actual expected ++ rest =
      correctedLines mode' zeros' start name actual' expected ++ rest') :
    actual = actual' ∧ rest = rest' := by
  obtain ⟨hline, h⟩ := List.cons.inj h
  have hrows := List.append_cancel_right (List.append_cancel_left hline)
  have heq : actual = actual' := by
    rw [← unhighlight_actualRow hactual hexpected mode zeros heven, hrows,
      unhighlight_actualRow hactual' hexpected mode' zeros' heven]
  refine ⟨heq, ?_⟩
  subst heq
  by_cases hsame : actual = expected
  · rwa [if_pos hsame, if_pos hsame] at h
  · rw [if_neg hsame, if_neg hsame] at h
    exact (List.cons.inj h).2

/-- The lines of a wide field are those of one text. -/
theorem wideLines_inj {actual' : Text} {rest rest' : List Text} {mode mode' : HighlightMode}
    (hactual : PlainText 64 actual) (hactual' : PlainText 64 actual')
    (hexpected : PlainText 64 expected)
    (h : wideLines mode name actual expected ++ rest =
      wideLines mode' name actual' expected ++ rest') : actual = actual' ∧ rest = rest' := by
  unfold wideLines at h
  simp only [List.cons_append, List.append_assoc] at h
  obtain ⟨hline, h⟩ := List.cons.inj h
  have htake : actual.take 32 = actual'.take 32 := by
    rw [← unhighlight_actualRow hactual.take hexpected.take mode false (by decide),
      List.append_cancel_left hline,
      unhighlight_actualRow hactual'.take hexpected.take mode' false (by decide)]
  -- What is left to show is that the second halves start at the same line.
  suffices hsecond : correctedLines mode false (valuePrefix name) name (actual.drop 32)
      (expected.drop 32) ++ rest = correctedLines mode' false (valuePrefix name) name
        (actual'.drop 32) (expected.drop 32) ++ rest' by
    obtain ⟨hdrop, hrest⟩ := correctedLines_inj (by decide) hactual.drop hactual'.drop
      hexpected.drop hsecond
    refine ⟨?_, hrest⟩
    rw [← List.take_append_drop 32 actual, htake, hdrop, List.take_append_drop]
  rw [← htake] at h
  have hblank : ∀ {mode : HighlightMode} {actual : Text} {rest rest' : List Text},
      [] :: rest ≠ correctedLines mode false (valuePrefix name) name actual (expected.drop 32) ++
        rest' := fun h => by
    have hnil := (List.cons.inj h).1
    simp [valuePrefix] at hnil
  by_cases hfirst : actual.take 32 = expected.take 32
  · simp only [hfirst, if_true, true_and, List.nil_append] at h
    split at h
    · split at h
      · exact h
      · exact absurd h.symm hblank
    · split at h
      · exact absurd h hblank
      · exact (List.cons.inj h).2
  · simp only [hfirst, if_false, false_and, List.cons_append, List.nil_append] at h
    exact (List.cons.inj (List.cons.inj h).2).2

/-- The lines of a field of the expected claim are those of one text. -/
theorem fieldLines_inj {n : Nat} {value value' : Text} {rest rest' : List Text}
    (hvalue : PlainText n value) (hvalue' : PlainText n value')
    (h : fieldLines name value ++ rest = fieldLines name value' ++ rest') :
    value = value' ∧ rest = rest' := by
  unfold fieldLines at h
  rw [hvalue.length, hvalue'.length] at h
  by_cases hwide : n = 64
  · rw [if_pos hwide, if_pos hwide] at h
    obtain ⟨hfirst, h⟩ := List.cons.inj h
    obtain ⟨hsecond, hrest⟩ := List.cons.inj h
    refine ⟨?_, hrest⟩
    rw [← List.take_append_drop 32 value, List.append_cancel_left hfirst,
      List.append_cancel_left (List.append_cancel_right hsecond), List.take_append_drop]
  · rw [if_neg hwide, if_neg hwide] at h
    obtain ⟨hline, hrest⟩ := List.cons.inj h
    exact ⟨List.append_cancel_left (List.append_cancel_right hline), hrest⟩

theorem length_fieldLines {n : Nat} {value value' : Text} (hvalue : PlainText n value)
    (hvalue' : PlainText n value') :
    (fieldLines name value).length = (fieldLines name value').length := by
  unfold fieldLines
  rw [hvalue.length, hvalue'.length]
  split <;> rfl

end Lines

/-- No line of the report breaks. -/
theorem newline_notMem_reportLines (mode : HighlightMode) (actual expected : Claim) :
    ∀ line ∈ reportLines mode actual expected, '\n' ∉ line := by
  have hgenesis := plainText_genesisHashDisplayHex
  have htip := plainText_tipHashDisplayHex
  have hwork := plainText_chainWorkDisplayHex
  have hheight := plainText_heightDisplayHex
  intro line hline
  simp only [reportLines, actualLines, expectedLines, List.mem_append] at hline
  rcases hline with hhead | (hline | hline | hline | hline) | hfoot | hline | hline | hline | hline
  · revert line
    decide
  · exact newline_notMem_wideLines (by decide) (hgenesis _) (hgenesis _) mode line hline
  · exact newline_notMem_wideLines (by decide) (htip _) (htip _) mode line hline
  · exact newline_notMem_wideLines (by decide) (hwork _) (hwork _) mode line hline
  · exact newline_notMem_correctedLines (newline_notMem_fieldPrefix (by decide)) (hheight _)
      (hheight _) mode _ line hline
  · revert line
    decide
  · exact newline_notMem_fieldLines (by decide) (hgenesis _) line hline
  · exact newline_notMem_fieldLines (by decide) (htip _) line hline
  · exact newline_notMem_fieldLines (by decide) (hwork _) line hline
  · exact newline_notMem_fieldLines (by decide) (hheight _) line hline

theorem expectedLines_inj {expected expected' : Claim}
    (h : expectedLines expected = expectedLines expected') : expected = expected' := by
  have h := List.append_cancel_left h
  obtain ⟨hgenesis, h⟩ := fieldLines_inj (plainText_genesisHashDisplayHex _)
    (plainText_genesisHashDisplayHex _) h
  obtain ⟨htip, h⟩ := fieldLines_inj (plainText_tipHashDisplayHex _)
    (plainText_tipHashDisplayHex _) h
  obtain ⟨hwork, h⟩ := fieldLines_inj (plainText_chainWorkDisplayHex _)
    (plainText_chainWorkDisplayHex _) h
  rw [← List.append_nil (fieldLines _ (heightDisplayHex expected)),
    ← List.append_nil (fieldLines _ (heightDisplayHex expected'))] at h
  obtain ⟨hheight, -⟩ := fieldLines_inj (plainText_heightDisplayHex _)
    (plainText_heightDisplayHex _) h
  exact eq_of_displayHex hgenesis htip hwork hheight

theorem actualLines_inj {actual actual' expected : Claim} {mode mode' : HighlightMode}
    (h : actualLines mode actual expected = actualLines mode' actual' expected) :
    actual = actual' := by
  obtain ⟨hgenesis, h⟩ := wideLines_inj (plainText_genesisHashDisplayHex _)
    (plainText_genesisHashDisplayHex _) (plainText_genesisHashDisplayHex _) h
  obtain ⟨htip, h⟩ := wideLines_inj (plainText_tipHashDisplayHex _)
    (plainText_tipHashDisplayHex _) (plainText_tipHashDisplayHex _) h
  obtain ⟨hwork, h⟩ := wideLines_inj (plainText_chainWorkDisplayHex _)
    (plainText_chainWorkDisplayHex _) (plainText_chainWorkDisplayHex _) h
  rw [← List.append_nil (narrowLines mode _ _ _), ← List.append_nil (narrowLines mode' _ _ _)] at h
  obtain ⟨hheight, -⟩ := correctedLines_inj (by decide) (plainText_heightDisplayHex _)
    (plainText_heightDisplayHex _) (plainText_heightDisplayHex _) h
  exact eq_of_displayHex hgenesis htip hwork hheight

/-- **A report is of one pair of claims.**  It is always written, and two reports that read the
same, whether marked by colours or by brackets, are of the same two claims. -/
theorem formatClaimMismatch_inj (actual expected actual' expected' : Claim)
    (mode mode' : HighlightMode)
    (h : formatClaimMismatchWithMode actual expected mode =
      formatClaimMismatchWithMode actual' expected' mode') :
    (∃ report, formatClaimMismatchWithMode actual expected mode = some report) ∧
      actual = actual' ∧ expected = expected' := by
  rw [formatClaimMismatchWithMode_eq, formatClaimMismatchWithMode_eq] at h
  have htext := List.append_cancel_right (Option.some.inj h)
  have hlines := List.append_cancel_left (unlines_inj
    (newline_notMem_reportLines mode actual expected)
    (newline_notMem_reportLines mode' actual' expected') htext)
  have hlength : (expectedLines expected).length = (expectedLines expected').length := by
    unfold expectedLines
    simp only [List.length_append]
    rw [length_fieldLines (plainText_genesisHashDisplayHex expected)
        (plainText_genesisHashDisplayHex expected'),
      length_fieldLines (plainText_tipHashDisplayHex expected)
        (plainText_tipHashDisplayHex expected'),
      length_fieldLines (plainText_chainWorkDisplayHex expected)
        (plainText_chainWorkDisplayHex expected'),
      length_fieldLines (plainText_heightDisplayHex expected)
        (plainText_heightDisplayHex expected')]
  obtain ⟨hactual, hexpected⟩ := List.append_inj' hlines hlength
  obtain rfl := expectedLines_inj hexpected
  exact ⟨⟨_, formatClaimMismatchWithMode_eq actual expected mode⟩, actualLines_inj hactual, rfl⟩

def exampleClaim : Claim where
  genesisHash := .replicate 32 0x11
  tipHash := .replicate 32 0x22
  chainWork := ⟨.replicate 4 0x3333333333333333⟩
  height := 0x01020304

/-- A claim compared with itself is reported alike in colours and in brackets. -/
theorem formatClaimMismatch_inj_example :
    formatClaimMismatchWithMode exampleClaim exampleClaim .ansi =
        formatClaimMismatchWithMode exampleClaim exampleClaim .brackets ∧
      ∃ report, formatClaimMismatchWithMode exampleClaim exampleClaim .ansi = some report := by
  have hsame : formatClaimMismatchWithMode exampleClaim exampleClaim .ansi =
      formatClaimMismatchWithMode exampleClaim exampleClaim .brackets := by decide +kernel
  exact ⟨hsame, (formatClaimMismatch_inj _ _ _ _ _ _ hsame).1⟩

end Zkpow.Host
