import Mathlib.Tactic
import Mathlib.Data.List.SplitBy
import Mathlib.Data.List.TakeWhile

/-!
# Marking runs

Pieces of text have kinds.  Neighbours of one kind form a run, and a run of each kind has a mark
before and a mark after it.

* `Marks.emit_none` — one pass that remembers the kind of the run it is in writes the runs;
* `Marks.reads_emit` — a reader that skips the marks gets the pieces back;
* `unlines_inj` — a text has the lines it was put together from.
-/

set_option autoImplicit false

namespace Runs

variable {κ χ : Type} [DecidableEq κ]

/-- What stands before and after a run of each kind. -/
structure Marks (κ χ : Type) where
  opening : κ → List χ
  closing : κ → List χ

namespace Marks

variable (marks : Marks κ χ)

def renderRun : List (κ × List χ) → List χ
  | [] => []
  | piece :: run =>
    marks.opening piece.1 ++ (piece :: run).flatMap Prod.snd ++ marks.closing piece.1

/-- The maximal runs, each between its marks. -/
def render (pieces : List (κ × List χ)) : List χ :=
  (pieces.splitBy fun a b => a.1 == b.1).flatMap marks.renderRun

/-- The same in one pass, inside a run of a kind or outside all runs. -/
def emit : Option κ → List (κ × List χ) → List χ
  | none, [] => []
  | some k, [] => marks.closing k
  | none, piece :: pieces => marks.opening piece.1 ++ piece.2 ++ emit (some piece.1) pieces
  | some k, piece :: pieces =>
    if piece.1 = k then piece.2 ++ emit (some k) pieces
    else marks.closing k ++ (marks.opening piece.1 ++ piece.2 ++ emit (some piece.1) pieces)

variable {marks}

/-- Inside a run, the pass first finishes it. -/
theorem emit_some (k : κ) : ∀ pieces : List (κ × List χ),
    marks.emit (some k) pieces = (pieces.takeWhile fun p => p.1 = k).flatMap Prod.snd ++
      (marks.closing k ++ marks.emit none (pieces.dropWhile fun p => p.1 = k))
  | [] => by simp [emit]
  | piece :: pieces => by
    by_cases hk : piece.1 = k
    · rw [emit, if_pos hk, emit_some k pieces]
      simp [hk]
    · rw [emit, if_neg hk]
      simp [hk, emit]

theorem render_cons (piece : κ × List χ) (pieces : List (κ × List χ)) :
    marks.render (piece :: pieces) = marks.opening piece.1 ++
      ((piece :: pieces.takeWhile fun p => p.1 = piece.1).flatMap Prod.snd ++
        (marks.closing piece.1 ++ marks.render (pieces.dropWhile fun p => p.1 = piece.1))) := by
  have hkind : ∀ p ∈ piece :: pieces.takeWhile (fun p => p.1 = piece.1), p.1 = piece.1 := by
    intro p hp
    rcases List.mem_cons.1 hp with rfl | hp
    · rfl
    · have htake := List.mem_takeWhile_imp hp
      exact of_decide_eq_true htake
  have hchain : (piece :: pieces.takeWhile (fun p => p.1 = piece.1)).IsChain
      fun a b => (a.1 == b.1) = true :=
    List.Pairwise.isChain (List.pairwise_of_forall_mem_list fun a ha b hb =>
      beq_iff_eq.2 ((hkind a ha).trans (hkind b hb).symm))
  have hends : ∀ a ∈ (piece :: pieces.takeWhile (fun p => p.1 = piece.1)).getLast?,
      ∀ b ∈ (pieces.dropWhile fun p => p.1 = piece.1).head?, (a.1 == b.1) = false := by
    intro a ha b hb
    have hnot := List.head?_dropWhile_not (fun p : κ × List χ => p.1 = piece.1) pieces
    rw [Option.mem_def.1 hb] at hnot
    rw [hkind a (List.mem_of_mem_getLast? ha), beq_eq_false_iff_ne]
    exact Ne.symm (of_decide_eq_false hnot)
  have hsplit : piece :: pieces = (piece :: pieces.takeWhile fun p => p.1 = piece.1) ++
      pieces.dropWhile fun p => p.1 = piece.1 := by
    rw [List.cons_append, List.takeWhile_append_dropWhile]
  have hruns : (piece :: pieces).splitBy (fun a b => a.1 == b.1) =
      (piece :: pieces.takeWhile fun p => p.1 = piece.1) ::
        (pieces.dropWhile fun p => p.1 = piece.1).splitBy fun a b => a.1 == b.1 := by
    rw [hsplit, List.splitBy_append hends,
      List.splitBy_of_isChain (List.cons_ne_nil _ _) hchain]
    rfl
  rw [render, hruns, List.flatMap_cons, renderRun, ← render, List.append_assoc, List.append_assoc]

variable (marks) in
/-- Between two pieces a run ends and another begins, or one goes on. -/
def between (k : Option κ) (new : κ) : List χ :=
  if k = some new then [] else k.elim [] marks.closing ++ marks.opening new

theorem emit_cons (k : Option κ) (piece : κ × List χ) (pieces : List (κ × List χ)) :
    marks.emit k (piece :: pieces) =
      marks.between k piece.1 ++ (piece.2 ++ marks.emit (some piece.1) pieces) := by
  unfold between
  cases k with
  | none => simp [emit]
  | some k =>
    rw [emit]
    by_cases hk : piece.1 = k
    · simp [hk]
    · simp [hk, Ne.symm hk]

/-- **The pass writes the maximal runs.** -/
theorem emit_none (pieces : List (κ × List χ)) : marks.emit none pieces = marks.render pieces := by
  induction hlen : pieces.length using Nat.strong_induction_on generalizing pieces with
  | _ n ih =>
    cases pieces with
    | nil => rfl
    | cons piece pieces =>
      have hshort : (pieces.dropWhile fun p => p.1 = piece.1).length < n := by
        have := (List.dropWhile_suffix (fun p => p.1 = piece.1) (l := pieces)).length_le
        rw [List.length_cons] at hlen
        omega
      rw [emit, emit_some, render_cons, ih _ hshort _ rfl]
      simp

/-- What all marks and pieces consist of. -/
theorem forall_mem_emit {P : χ → Prop} (hopening : ∀ k, ∀ c ∈ marks.opening k, P c)
    (hclosing : ∀ k, ∀ c ∈ marks.closing k, P c) : ∀ (pieces : List (κ × List χ)) (k : Option κ),
    (∀ piece ∈ pieces, ∀ c ∈ piece.2, P c) → ∀ c ∈ marks.emit k pieces, P c
  | [], none, _, _, hc => by cases hc
  | [], some k, _, c, hc => hclosing k c hc
  | piece :: pieces, k, h, c, hc => by
    rw [emit_cons, List.mem_append, List.mem_append] at hc
    rcases hc with hmark | hpiece | hrest
    · unfold between at hmark
      split at hmark
      · cases hmark
      · rcases List.mem_append.1 hmark with hclose | hopen
        · cases k with
          | none => cases hclose
          | some k => exact hclosing k c hclose
        · exact hopening piece.1 c hopen
    · exact h piece List.mem_cons_self c hpiece
    · exact forall_mem_emit hopening hclosing pieces _
        (fun p hp => h p (List.mem_cons_of_mem _ hp)) c hrest

end Marks

/-! ## Reading -/

/-- A reader takes some text for its content, whatever comes after it. -/
def Reads (read : List χ → List χ) (text content : List χ) : Prop :=
  ∀ rest, read (text ++ rest) = content ++ read rest

theorem Reads.nil (read : List χ → List χ) : Reads read [] [] := fun _ => rfl

theorem Reads.append {read : List χ → List χ} {text text' content content' : List χ}
    (h : Reads read text content) (h' : Reads read text' content') :
    Reads read (text ++ text') (content ++ content') := by
  intro rest
  rw [List.append_assoc, h, h', List.append_assoc]

/-- A reader that skips marks reads the content of the pieces. -/
theorem Marks.reads_emit {marks : Marks κ χ} {read : List χ → List χ}
    (hopening : ∀ k, Reads read (marks.opening k) [])
    (hclosing : ∀ k, Reads read (marks.closing k) []) (content : κ × List χ → List χ) :
    ∀ (pieces : List (κ × List χ)) (k : Option κ),
      (∀ piece ∈ pieces, Reads read piece.2 (content piece)) →
      Reads read (marks.emit k pieces) (pieces.flatMap content)
  | [], none, _ => .nil read
  | [], some k, _ => hclosing k
  | piece :: pieces, k, h => by
    have hpiece := h piece List.mem_cons_self
    have ih := reads_emit hopening hclosing content pieces (some piece.1)
      fun p hp => h p (List.mem_cons_of_mem _ hp)
    have hopened := ((hopening piece.1).append hpiece).append ih
    cases k with
    | none => exact hopened
    | some k =>
      rw [emit, List.flatMap_cons]
      split
      · rename_i hk
        exact hpiece.append (hk ▸ ih)
      · exact (hclosing k).append hopened

/-! ## Lines -/

section Lines

variable {sep : χ}

/-- Lines, each ended by a separator. -/
def unlines (sep : χ) (lines : List (List χ)) : List χ := lines.flatMap (· ++ [sep])

theorem unlines_append (lines more : List (List χ)) :
    unlines sep (lines ++ more) = unlines sep lines ++ unlines sep more := List.flatMap_append

/-- The first line ends at the first separator. -/
theorem append_sep_inj : ∀ {line line' rest rest' : List χ}, sep ∉ line → sep ∉ line' →
    line ++ sep :: rest = line' ++ sep :: rest' → line = line' ∧ rest = rest'
  | [], [], _, _, _, _, h => ⟨rfl, (List.cons.inj h).2⟩
  | [], _ :: _, _, _, _, hline', h => by
    rw [(List.cons.inj h).1] at hline'
    exact absurd List.mem_cons_self hline'
  | _ :: _, [], _, _, hline, _, h => by
    rw [(List.cons.inj h).1] at hline
    exact absurd List.mem_cons_self hline
  | c :: line, c' :: line', _, _, hline, hline', h => by
    obtain ⟨hc, htail⟩ := List.cons.inj h
    obtain ⟨hlines, hrest⟩ := append_sep_inj (fun hm => hline (List.mem_cons_of_mem _ hm))
      (fun hm => hline' (List.mem_cons_of_mem _ hm)) htail
    exact ⟨by rw [hc, hlines], hrest⟩

/-- **A text has the lines it was put together from.** -/
theorem unlines_inj : ∀ {lines lines' : List (List χ)}, (∀ line ∈ lines, sep ∉ line) →
    (∀ line ∈ lines', sep ∉ line) → unlines sep lines = unlines sep lines' → lines = lines'
  | [], [], _, _, _ => rfl
  | [], line :: lines', _, _, h => by simp [unlines] at h
  | line :: lines, [], _, _, h => by simp [unlines] at h
  | line :: lines, line' :: lines', hlines, hlines', h => by
    simp only [unlines, List.flatMap_cons, List.append_assoc, List.singleton_append] at h
    obtain ⟨hline, hrest⟩ := append_sep_inj (hlines line List.mem_cons_self)
      (hlines' line' List.mem_cons_self) h
    rw [hline, unlines_inj (fun l hl => hlines l (List.mem_cons_of_mem _ hl))
      (fun l hl => hlines' l (List.mem_cons_of_mem _ hl)) hrest]

end Lines

end Runs
