import Mathlib.Data.String.Basic
import Mathlib.Tactic
import Zkpow.Lib.PrefixTree

/-!
# The cycle hierarchy of an execution report

`crates/host/src/pipeline/diagnostics.rs`: the guest's spans have labels such as `main/headers/pow`.
The host enters them into a tree of label segments, sums the cycles up the tree with saturating
arithmetic, and logs it.  Percentages and log lines are left out, and with them the early return on
a report without spans and the plain `u64` sum of all cycles.

* `cycleTree_valueAt` — what the tree says of every path, whatever order the spans come in.
-/

set_option autoImplicit false

namespace Zkpow.Host

open PrefixTree

/-- A `u64` that is added with `saturating_add`. -/
abbrev SaturatingU64 := Capped (2 ^ 64 - 1)

def SaturatingU64.ofU64 (n : UInt64) : SaturatingU64 := Capped.ofNat _ n.toNat

/-- The counters of a `CycleTreeNode`. -/
structure CycleCounts where
  selfCycles : SaturatingU64
  selfInvocations : SaturatingU64
  totalCycles : SaturatingU64
  deriving DecidableEq

def CycleCounts.default : CycleCounts := ⟨0, 0, 0⟩

abbrev CycleTreeNode := Tree String CycleCounts

namespace CycleTreeNode

def default : CycleTreeNode := .leaf .default

/-- `path.split('/').filter(|segment| !segment.is_empty())`. -/
def segments (path : String) : List String :=
  ((path.toList.splitOn '/').filter fun segment => segment ≠ []).map String.ofList

/-- The counters of the node an entry is for. -/
def addSelf (cycles invocations : SaturatingU64) (counts : CycleCounts) : CycleCounts :=
  { counts with
    selfCycles := counts.selfCycles + cycles
    selfInvocations := counts.selfInvocations + invocations }

def insert (tree : CycleTreeNode) (path : String) (cycles invocations : UInt64) : CycleTreeNode :=
  Tree.insert .default (addSelf (.ofU64 cycles) (.ofU64 invocations)) (segments path) tree

/-- `finalize_totals`: the tree with its totals, and the total of the root. -/
def finalizeTotals (tree : CycleTreeNode) : CycleTreeNode × SaturatingU64 :=
  tree.finish CycleCounts.selfCycles fun total counts => { counts with totalCycles := total }

end CycleTreeNode

/-- The cycles of the spans by label, in the order of a hash map, and their invocations. -/
structure ExecutionReport where
  cycleTracker : List (String × UInt64)
  invocationTracker : String → Option UInt64

namespace ExecutionReport

variable (report : ExecutionReport)

def invocations (label : String) : UInt64 := (report.invocationTracker label).getD 1

/-- The spans with the most cycles first. -/
def entries : List (String × UInt64) :=
  report.cycleTracker.mergeSort fun a b => b.2 < a.2 ∨ (a.2 = b.2 ∧ a.1 ≤ b.1)

/-- The tree that `log_execution_report` logs. -/
def cycleTree : CycleTreeNode :=
  let tree : CycleTreeNode := report.entries.foldl (fun tree entry =>
    CycleTreeNode.insert tree entry.1 entry.2 (report.invocations entry.1)) CycleTreeNode.default
  (CycleTreeNode.finalizeTotals tree).1

/-- The sum of an amount over the spans of which something holds. -/
def sumOver (p : String × UInt64 → Bool) (amount : String × UInt64 → UInt64) : Nat :=
  ((report.cycleTracker.filter p).map fun entry => (amount entry).toNat).sum

variable {report}

theorem entries_perm : report.entries.Perm report.cycleTracker := List.mergeSort_perm _ _

/-- A saturating sum over the sorted spans. -/
theorem sum_entries (p : String × UInt64 → Bool) (amount : String × UInt64 → UInt64) :
    ((report.entries.filter p).map fun entry => SaturatingU64.ofU64 (amount entry)).sum =
      .ofNat _ (report.sumOver p amount) := by
  have hval : ∀ n : UInt64, (SaturatingU64.ofU64 n).val = n.toNat := fun n =>
    Nat.min_eq_left (Nat.le_sub_one_of_lt n.toNat_lt)
  have hperm := ((report.entries_perm.filter p).map fun entry => (amount entry).toNat).sum_eq
  apply Capped.ext
  rw [Capped.val_sum, List.map_map, sumOver, ← hperm]
  simp only [Function.comp_def, hval, Capped.ofNat]

/-- Many entries for one node. -/
theorem foldl_addSelf (cycles invocations : String × UInt64 → SaturatingU64) :
    ∀ (entries : List (String × UInt64)) (counts : CycleCounts),
      entries.foldl (fun c e => CycleTreeNode.addSelf (cycles e) (invocations e) c) counts =
        { counts with
          selfCycles := counts.selfCycles + (entries.map cycles).sum
          selfInvocations := counts.selfInvocations + (entries.map invocations).sum }
  | [], counts => by simp
  | e :: entries, counts => by
    rw [List.foldl_cons, foldl_addSelf cycles invocations entries]
    simp [CycleTreeNode.addSelf, add_assoc]

variable (report) in
/-- The tree before its totals. -/
def cycleEntries : CycleTreeNode :=
  Tree.insertAll .default (fun e => CycleTreeNode.segments e.1)
    (fun e => CycleTreeNode.addSelf (.ofU64 e.2) (.ofU64 (report.invocations e.1)))
    (.leaf .default) report.entries

theorem cycleTree_eq :
    report.cycleTree = (CycleTreeNode.finalizeTotals report.cycleEntries).1 := rfl

/-- The total under a path, over all spans below it. -/
theorem totalAt_cycleEntries (path : List String) :
    report.cycleEntries.totalAt CycleCounts.selfCycles path =
      .ofNat _ (report.sumOver (fun e => path <+: CycleTreeNode.segments e.1) Prod.snd) := by
  have hself : ∀ (e : String × UInt64) (counts : CycleCounts),
      (CycleTreeNode.addSelf (.ofU64 e.2) (.ofU64 (report.invocations e.1)) counts).selfCycles =
        counts.selfCycles + .ofU64 e.2 := fun _ _ => rfl
  have hleaf : (Tree.leaf CycleCounts.default : CycleTreeNode).totalAt
      CycleCounts.selfCycles path = 0 := by
    cases path <;> rfl
  rw [cycleEntries, Tree.totalAt_insertAll _ _ _ hself rfl, hleaf, zero_add,
    report.sum_entries]

/-- The counters of a path, over the spans of this very path. -/
theorem valueAt_cycleEntries (path : List String) :
    report.cycleEntries.valueAt path =
      if path = [] ∨ ∃ entry ∈ report.cycleTracker, path <+: CycleTreeNode.segments entry.1 then
        some
          { CycleCounts.default with
            selfCycles :=
              .ofNat _ (report.sumOver (fun e => path = CycleTreeNode.segments e.1) Prod.snd)
            selfInvocations :=
              .ofNat _ (report.sumOver (fun e => path = CycleTreeNode.segments e.1)
                fun e => report.invocations e.1) }
      else none := by
  have hleaf : ((Tree.leaf CycleCounts.default : CycleTreeNode).valueAt path).isSome ↔
      path = [] := by
    cases path with
    | nil => simp [Tree.valueAt, Tree.find?]
    | cons k path => simp [Tree.valueAt, Tree.find?, Tree.leaf, Tree.children, Forest.get?]
  have hdefault : ((Tree.leaf CycleCounts.default : CycleTreeNode).valueAt path).getD .default =
      CycleCounts.default := by
    cases path <;> rfl
  have hmem : (∃ entry ∈ report.entries, path <+: CycleTreeNode.segments entry.1) ↔
      ∃ entry ∈ report.cycleTracker, path <+: CycleTreeNode.segments entry.1 := by
    simp only [report.entries_perm.mem_iff]
  rw [cycleEntries, Tree.valueAt_insertAll, hdefault, foldl_addSelf, report.sum_entries,
    report.sum_entries]
  simp only [hleaf, hmem]
  simp only [CycleCounts.default, zero_add]

end ExecutionReport

open ExecutionReport in
/-- **The hierarchy of every report.**  The tree has a node for a path exactly if the path is that
of the root or begins the label of some span; the node's own counters are the sums over the spans
of this very path, and its total is the sum over the spans that begin with it, each up to the
greatest `u64`, whatever order the spans come in. -/
theorem cycleTree_valueAt (report : ExecutionReport) (path : List String) :
    report.cycleTree.valueAt path =
      if path = [] ∨ ∃ entry ∈ report.cycleTracker, path <+: CycleTreeNode.segments entry.1 then
        some
          { selfCycles :=
              .ofNat _ (report.sumOver (fun e => path = CycleTreeNode.segments e.1) Prod.snd)
            selfInvocations :=
              .ofNat _ (report.sumOver (fun e => path = CycleTreeNode.segments e.1)
                fun e => report.invocations e.1)
            totalCycles :=
              .ofNat _ (report.sumOver (fun e => path <+: CycleTreeNode.segments e.1) Prod.snd) }
      else none := by
  rw [cycleTree_eq, CycleTreeNode.finalizeTotals, Tree.valueAt_finish, totalAt_cycleEntries,
    valueAt_cycleEntries]
  split
  · rfl
  · rfl

end Zkpow.Host
