import Mathlib.Tactic

/-!
# A tree of paths with totals

Values are entered under paths; nodes on the way are created as needed, and the children of a node
are kept in the order of their keys.  Afterwards one walk gives every node the total of what is
below it.

* `Tree.valueAt_insert` — an entry changes the value under its path, and creates the nodes on the
  way;
* `Tree.totalAt_insert` — and adds its amount to the total under every prefix of its path;
* `Tree.valueAt_finish` — the walk gives every node that total;
* `Tree.valueAt_insertAll`, `Tree.totalAt_insertAll` — many entries.

Amounts that stop growing at a limit are a commutative monoid (`Capped`), so all of this applies to
saturating counters.
-/

set_option autoImplicit false

namespace PrefixTree

/-! ## Amounts with a limit -/

/-- A natural number up to a limit, added by saturating. -/
structure Capped (limit : Nat) where
  val : Nat
  le : val ≤ limit
  deriving DecidableEq

namespace Capped

variable {limit : Nat}

def ofNat (limit n : Nat) : Capped limit := ⟨min n limit, Nat.min_le_right ..⟩

instance instAdd : Add (Capped limit) := ⟨fun a b => ofNat limit (a.val + b.val)⟩

instance instZero : Zero (Capped limit) := ⟨⟨0, Nat.zero_le _⟩⟩

@[simp] theorem val_zero : (0 : Capped limit).val = 0 := rfl

@[simp] theorem val_add (a b : Capped limit) : (a + b).val = min (a.val + b.val) limit := rfl

theorem ext {a b : Capped limit} (h : a.val = b.val) : a = b := by
  cases a
  cases b
  cases h
  rfl

instance instAddCommMonoid : AddCommMonoid (Capped limit) where
  add_assoc a b c := ext (by simp only [val_add]; omega)
  zero_add a := ext (by have := a.le; simp only [val_add, val_zero]; omega)
  add_zero a := ext (by have := a.le; simp only [val_add, val_zero]; omega)
  add_comm a b := ext (by simp only [val_add]; omega)
  nsmul := nsmulRec

/-- A sum is the sum of the numbers, up to the limit. -/
theorem val_sum (l : List (Capped limit)) : l.sum.val = min (l.map val).sum limit := by
  induction l with
  | nil => exact (Nat.min_eq_left (Nat.zero_le _)).symm
  | cons a l ih =>
    rw [List.sum_cons, val_add, ih, List.map_cons, List.sum_cons]
    omega

end Capped

/-! ## Trees -/

mutual

inductive Tree (κ α : Type) where
  | node (value : α) (children : Forest κ α)

/-- The children of a node, with their keys. -/
inductive Forest (κ α : Type) where
  | nil
  | cons (key : κ) (child : Tree κ α) (rest : Forest κ α)

end

variable {κ α N : Type}

def Tree.leaf (value : α) : Tree κ α := .node value .nil

def Tree.value : Tree κ α → α
  | .node value _ => value

def Tree.children : Tree κ α → Forest κ α
  | .node _ children => children

section Search

variable [LinearOrder κ]

/-- The child of a key; the search ends at a greater key. -/
def Forest.get? (k : κ) : Forest κ α → Option (Tree κ α)
  | .nil => none
  | .cons key child rest => if k < key then none else if k = key then some child else rest.get? k

/-- The child of a key is replaced, or put in its place in the order. -/
def Forest.alter (k : κ) (f : Option (Tree κ α) → Tree κ α) : Forest κ α → Forest κ α
  | .nil => .cons k (f none) .nil
  | .cons key child rest =>
    if k < key then .cons k (f none) (.cons key child rest)
    else if k = key then .cons key (f (some child)) rest
    else .cons key child (rest.alter k f)

theorem Forest.get?_alter_self (k : κ) (f : Option (Tree κ α) → Tree κ α) :
    ∀ children : Forest κ α, (children.alter k f).get? k = some (f (children.get? k))
  | .nil => by simp [alter, get?]
  | .cons key child rest => by
    unfold alter
    rcases lt_trichotomy k key with h | rfl | h
    · simp [get?, h]
    · simp [get?]
    · simp [get?, h.not_gt, h.ne', get?_alter_self k f rest]

theorem Forest.get?_alter_of_ne {k k' : κ} (f : Option (Tree κ α) → Tree κ α) (h : k' ≠ k) :
    ∀ children : Forest κ α, (children.alter k f).get? k' = children.get? k'
  | .nil => by simp [alter, get?, h]
  | .cons key child rest => by
    unfold alter
    rcases lt_trichotomy k key with hk | rfl | hk
    · rw [if_pos hk]
      unfold get?
      rcases lt_trichotomy k' k with hk' | rfl | hk'
      · rw [if_pos hk', if_pos (hk'.trans hk)]
      · exact absurd rfl h
      · rw [if_neg hk'.not_gt, if_neg h]
        rfl
    · rw [if_neg (lt_irrefl k), if_pos rfl]
      simp [get?, h]
    · rw [if_neg hk.not_gt, if_neg hk.ne']
      simp [get?, get?_alter_of_ne f h rest]

/-- The node of a path. -/
def Tree.find? : List κ → Tree κ α → Option (Tree κ α)
  | [], t => some t
  | k :: path, t => (t.children.get? k).bind (find? path)

/-- A change of the value under a path, from a default where the path is new. -/
def Tree.insert (d : α) (f : α → α) : List κ → Tree κ α → Tree κ α
  | [], .node value children => .node (f value) children
  | k :: path, .node value children =>
    .node value (children.alter k fun child => insert d f path (child.getD (.leaf d)))

/-- The value under a path. -/
def Tree.valueAt (path : List κ) (t : Tree κ α) : Option α := (t.find? path).map Tree.value

theorem Tree.valueAt_cons (k : κ) (path : List κ) (t : Tree κ α) :
    t.valueAt (k :: path) = (t.children.get? k).bind (valueAt path) := by
  rw [valueAt, find?, Option.map_bind]
  rfl

/-- **An entry changes the value under its path**, and creates the nodes on the way. -/
theorem Tree.valueAt_insert (d : α) (f : α → α) : ∀ (path path' : List κ) (t : Tree κ α),
    (t.insert d f path).valueAt path' =
      if path' = path then some (f ((t.valueAt path').getD d))
      else if path' <+: path then some ((t.valueAt path').getD d) else t.valueAt path'
  | [], [], .node _ _ => rfl
  | [], _ :: _, .node _ _ => by simp [insert, valueAt, find?, children]
  | k :: path, [], .node _ _ => by simp [insert, valueAt, find?, value]
  | k :: path, k' :: path', .node v cs => by
    rw [insert, valueAt_cons, valueAt_cons, children, children]
    by_cases hk : k' = k
    · subst hk
      rw [Forest.get?_alter_self, Option.bind_some, valueAt_insert d f path path']
      simp only [List.cons.injEq, true_and, List.cons_prefix_cons]
      cases cs.get? k' with
      | some child => rfl
      | none =>
        cases path' with
        | nil => simp [valueAt, find?, leaf, value]
        | cons k'' path' => rfl
    · rw [Forest.get?_alter_of_ne _ hk, if_neg (fun h => hk (List.cons.inj h).1), if_neg]
      exact fun h => hk (List.cons_prefix_cons.1 h).1

end Search

/-! ## Totals -/

section Totals

variable [AddCommMonoid N] (g : α → N)

mutual

/-- The total of the amounts of a node and of all nodes below it. -/
def Tree.total : Tree κ α → N
  | .node value children => g value + children.total

def Forest.total : Forest κ α → N
  | .nil => 0
  | .cons _ child rest => child.total + rest.total

end

mutual

/-- The walk that gives every node its total, in the order of the keys. -/
def Tree.finish (set : N → α → α) : Tree κ α → Tree κ α × N
  | .node value children =>
    let r := children.finish set (g value)
    (.node (set r.2 value) r.1, r.2)

/-- The children, with the total so far. -/
def Forest.finish (set : N → α → α) : Forest κ α → N → Forest κ α × N
  | .nil, total => (.nil, total)
  | .cons key child rest, total =>
    let c := child.finish set
    let r := rest.finish set (total + c.2)
    (.cons key c.1 r.1, r.2)

end

variable (set : N → α → α)

mutual

theorem Tree.finish_total : ∀ t : Tree κ α, (t.finish g set).2 = t.total g
  | .node value children => by
    rw [Tree.finish, Tree.total, Forest.finish_total children]

theorem Forest.finish_total : ∀ (children : Forest κ α) (total : N),
    (children.finish g set total).2 = total + children.total g
  | .nil, total => by rw [Forest.finish, Forest.total, add_zero]
  | .cons key child rest, total => by
    rw [Forest.finish, Forest.total, Forest.finish_total rest, Tree.finish_total child, add_assoc]

end

variable {g} [LinearOrder κ]

theorem Forest.get?_finish (k : κ) : ∀ (children : Forest κ α) (total : N),
    (children.finish g set total).1.get? k =
      (children.get? k).map fun child => (child.finish g set).1
  | .nil, _ => rfl
  | .cons key child rest, total => by
    simp only [finish, get?]
    split
    · rfl
    · split
      · rfl
      · exact get?_finish k rest _

/-- **Every node gets the total of its own subtree.** -/
theorem Tree.find?_finish : ∀ (path : List κ) (t : Tree κ α),
    (t.finish g set).1.find? path = (t.find? path).map fun s => (s.finish g set).1
  | [], _ => rfl
  | k :: path, .node value children => by
    rw [finish, find?, find?]
    show ((children.finish g set (g value)).1.get? k).bind (find? path) =
      ((children.get? k).bind (find? path)).map fun s => (s.finish g set).1
    rw [Forest.get?_finish]
    cases children.get? k with
    | none => rfl
    | some child => exact find?_finish path child

omit [LinearOrder κ] in
theorem Tree.value_finish (t : Tree κ α) :
    (t.finish g set).1.value = set (t.total g) t.value := by
  rw [← Tree.finish_total g set t]
  cases t
  rfl

variable (g) in
/-- The total under a path. -/
def Tree.totalAt (path : List κ) (t : Tree κ α) : N := (t.find? path).elim 0 (Tree.total g)

theorem Tree.valueAt_finish (path : List κ) (t : Tree κ α) :
    (t.finish g set).1.valueAt path = (t.valueAt path).map (set (t.totalAt g path)) := by
  unfold valueAt totalAt
  rw [find?_finish]
  cases t.find? path with
  | none => rfl
  | some s => exact congrArg some (value_finish set s)

theorem Forest.total_alter {k : κ} {f : Option (Tree κ α) → Tree κ α} {δ : N}
    (hnew : (f none).total g = δ) (hold : ∀ t, (f (some t)).total g = t.total g + δ) :
    ∀ children : Forest κ α, (children.alter k f).total g = children.total g + δ
  | .nil => by simp only [alter, total, hnew, add_zero, zero_add]
  | .cons key child rest => by
    unfold alter
    split
    · simp only [total, hnew]
      exact add_comm ..
    · split
      · simp only [total, hold]
        exact add_right_comm ..
      · simp only [total, total_alter hnew hold rest]
        exact (add_assoc ..).symm

section Entry

variable {d : α} {f : α → α} {δ : N} (hf : ∀ a, g (f a) = g a + δ) (hd : g d = 0)

include hf hd

/-- A change that adds an amount adds it to the total. -/
theorem Tree.total_insert : ∀ (path : List κ) (t : Tree κ α),
    (t.insert d f path).total g = t.total g + δ
  | [], .node value children => by
    rw [insert, total, total, hf, add_right_comm]
  | k :: path, .node value children => by
    rw [insert, total, total, Forest.total_alter _ fun t => total_insert path t, add_assoc]
    rw [Option.getD_none, total_insert path]
    simp [leaf, total, Forest.total, hd]

/-- **An entry adds its amount under every prefix of its path.** -/
theorem Tree.totalAt_insert : ∀ (path path' : List κ) (t : Tree κ α),
    (t.insert d f path).totalAt g path' =
      t.totalAt g path' + if path' <+: path then δ else 0
  | path, [], t => by
    rw [if_pos (List.nil_prefix)]
    exact total_insert hf hd path t
  | [], _ :: _, .node _ _ => by simp [insert, totalAt, find?, children]
  | k :: path, k' :: path', .node v cs => by
    have hcons : ∀ t : Tree κ α, t.totalAt g (k' :: path') =
        (t.children.get? k').elim 0 (totalAt g path') := fun t => by
      rw [totalAt, find?]
      cases t.children.get? k' <;> rfl
    rw [insert, hcons, hcons, children, children]
    by_cases hk : k' = k
    · subst hk
      rw [Forest.get?_alter_self, Option.elim_some, totalAt_insert path path']
      simp only [List.cons_prefix_cons, true_and]
      cases cs.get? k' with
      | some child => rfl
      | none =>
        have hleaf : (leaf d : Tree κ α).totalAt g path' = 0 := by
          cases path' with
          | nil => simp [totalAt, find?, leaf, total, Forest.total, hd]
          | cons k'' path' => rfl
        rw [Option.getD_none, hleaf]
        rfl
    · rw [Forest.get?_alter_of_ne _ hk, if_neg, add_zero]
      exact fun h => hk (List.cons_prefix_cons.1 h).1

end Entry

/-! ## Many entries -/

variable {ε : Type} (d : α) (path : ε → List κ) (f : ε → α → α)

/-- Entries, one after the other. -/
def Tree.insertAll (t : Tree κ α) (entries : List ε) : Tree κ α :=
  entries.foldl (fun t e => t.insert d (f e) (path e)) t

omit [AddCommMonoid N] in
/-- A path has a value if some entry goes through it; the entries under it have changed it in
their order. -/
theorem Tree.valueAt_insertAll (p : List κ) : ∀ (entries : List ε) (t : Tree κ α),
    (t.insertAll d path f entries).valueAt p =
      if (t.valueAt p).isSome ∨ ∃ e ∈ entries, p <+: path e then
        some ((entries.filter fun e => p = path e).foldl (fun a e => f e a) ((t.valueAt p).getD d))
      else none
  | [], t => by
    cases h : t.valueAt p <;> simp [insertAll, h]
  | e :: entries, t => by
    have ih := valueAt_insertAll p entries (t.insert d (f e) (path e))
    rw [valueAt_insert] at ih
    show ((t.insert d (f e) (path e)).insertAll d path f entries).valueAt p = _
    rw [ih]
    by_cases heq : p = path e
    · simp [heq]
    · by_cases hpre : p <+: path e
      · simp [heq, hpre]
      · simp [heq, hpre]

theorem Tree.totalAt_insertAll {δ : ε → N} (hf : ∀ e a, g (f e a) = g a + δ e) (hd : g d = 0)
    (p : List κ) : ∀ (entries : List ε) (t : Tree κ α),
    (t.insertAll d path f entries).totalAt g p =
      t.totalAt g p + ((entries.filter fun e => p <+: path e).map δ).sum
  | [], t => by simp [insertAll]
  | e :: entries, t => by
    have ih := totalAt_insertAll hf hd p entries (t.insert d (f e) (path e))
    rw [totalAt_insert (hf e) hd, add_assoc] at ih
    show ((t.insert d (f e) (path e)).insertAll d path f entries).totalAt g p = _
    rw [ih]
    by_cases hpre : p <+: path e
    · simp [hpre]
    · simp [hpre]

end Totals

end PrefixTree
