import Mathlib.Tactic
import Zkpow.Lib.Transactions

/-!
# A one-place cache shared by concurrent calls

A call looks into the slot under a lock and returns what it finds for its key.  Otherwise it builds
a value, without the lock, and stores it over whatever the slot holds by then.  The steps of the
calls interleave in any order; a step that is not the next one of its call does not happen.

* `Inv`, `run_inv` — what a call returns was built for its key, whatever the interleaving;
* `builds_eq_zero` — of calls for one key, those that look after the first store do not build.
-/

set_option autoImplicit false

namespace SharedSlot

open Transactions

variable {C K V E : Type}

/-! ## Calls and their steps -/

/-- How far a call has got. -/
inductive Phase (V E : Type) where
  | waiting
  | building
  | built (value : V)
  | returned (result : Except E V)

structure World (C K V E : Type) where
  slot : Option (K × V)
  phase : C → Phase V E

/-- Nothing is cached and no call has started. -/
def World.initial : World C K V E := ⟨none, fun _ => .waiting⟩

/-- A step of a call; a build brings its outcome with it. -/
inductive Action (C V E : Type) where
  | look (c : C)
  | build (c : C) (outcome : Except E V)
  | store (c : C)

/-- The call looked into the slot after some call had stored. -/
def LooksAfterStore (c : C) (history : List (Action C V E)) : Prop :=
  ∃ h₁ d h₂, history = h₁ ++ .store d :: h₂ ∧ .look c ∈ h₂

theorem looksAfterStore_concat {c : C} {history : List (Action C V E)} {a : Action C V E} :
    LooksAfterStore c (history ++ [a]) ↔
      LooksAfterStore c history ∨ (a = .look c ∧ ∃ d, .store d ∈ history) := by
  constructor
  · rintro ⟨h₁, d, h₂, heq, hlook⟩
    rcases List.eq_nil_or_concat h₂ with rfl | ⟨h₂, b, rfl⟩
    · cases hlook
    rw [List.concat_eq_append] at heq hlook
    rw [← List.cons_append, ← List.append_assoc] at heq
    obtain ⟨rfl, hab⟩ := List.append_inj' heq rfl
    rcases List.mem_append.1 hlook with hlook | hlook
    · exact .inl ⟨h₁, d, h₂, rfl, hlook⟩
    · refine .inr ⟨?_, d, by simp⟩
      rw [List.singleton_inj.1 hab, List.mem_singleton.1 hlook]
  · rintro (⟨h₁, d, h₂, rfl, hlook⟩ | ⟨rfl, d, hstore⟩)
    · exact ⟨h₁, d, h₂ ++ [a], by simp, List.mem_append_left _ hlook⟩
    · obtain ⟨h₁, h₂, rfl⟩ := List.append_of_mem hstore
      exact ⟨h₁, d, h₂ ++ [.look c], by simp, by simp⟩

section Slot

variable [DecidableEq K]

/-- What a call finds in the slot. -/
def World.found (w : World C K V E) (k : K) : Option V :=
  match w.slot with
  | some (k', v) => if k' = k then some v else none
  | none => none

theorem World.found_eq_some {w : World C K V E} {k : K} {v : V} :
    w.found k = some v ↔ w.slot = some (k, v) := by
  unfold World.found
  split
  · rename_i k' v' hslot
    rw [hslot]
    split
    · rename_i hk
      simp [hk]
    · rename_i hk
      simp [hk]
  · rename_i hslot
    simp [hslot]

end Slot

section Calls

variable [DecidableEq C]

def World.set (w : World C K V E) (c : C) (p : Phase V E) : World C K V E :=
  { w with phase := Function.update w.phase c p }

theorem World.set_self (w : World C K V E) (c : C) (p : Phase V E) : (w.set c p).phase c = p :=
  Function.update_self ..

theorem World.set_of_ne (w : World C K V E) {c d : C} (p : Phase V E) (h : d ≠ c) :
    (w.set c p).phase d = w.phase d :=
  Function.update_of_ne h ..

/-- The builds of a call among the steps that happened. -/
def builds (c : C) : List (Action C V E) → Nat
  | [] => 0
  | .build d _ :: history => (if d = c then 1 else 0) + builds c history
  | _ :: history => builds c history

theorem builds_append (c : C) (xs ys : List (Action C V E)) :
    builds c (xs ++ ys) = builds c xs + builds c ys := by
  induction xs with
  | nil => simp [builds]
  | cons a xs ih =>
    cases a <;> simp only [List.cons_append, builds, ih]
    omega

/-! ## The invariant -/

/-- Whose build a value comes from: what is cached, what a call holds and what it has returned. -/
structure Inv (request : C → K) (w : World C K V E) (history : List (Action C V E)) : Prop where
  slot : ∀ k v, w.slot = some (k, v) → ∃ c, request c = k ∧ .build c (.ok v) ∈ history
  built : ∀ c v, w.phase c = .built v → .build c (.ok v) ∈ history
  returned : ∀ c v, w.phase c = .returned (.ok v) →
    ∃ d, request d = request c ∧ .build d (.ok v) ∈ history
  failed : ∀ c e, w.phase c = .returned (.error e) → .build c (.error e) ∈ history
  fresh : ∀ c, w.phase c = .waiting ∨ w.phase c = .building → builds c history = 0
  once : ∀ c, builds c history ≤ 1

variable {request : C → K}

theorem Inv.initial : Inv request (.initial : World C K V E) [] where
  slot _ _ h := by cases h
  built _ _ h := by cases h
  returned _ _ h := by cases h
  failed _ _ h := by cases h
  fresh _ _ := rfl
  once _ := Nat.zero_le _

/-- A call in a new phase that the history accounts for keeps the invariant. -/
theorem Inv.set {w : World C K V E} {history : List (Action C V E)} {c : C} {p : Phase V E}
    {a : Action C V E} (h : Inv request w history)
    (hbuilt : ∀ v, p = .built v → .build c (.ok v) ∈ history ++ [a])
    (hreturned : ∀ v, p = .returned (.ok v) →
      ∃ d, request d = request c ∧ .build d (.ok v) ∈ history ++ [a])
    (hfailed : ∀ e, p = .returned (.error e) → .build c (.error e) ∈ history ++ [a])
    (hfresh : p = .waiting ∨ p = .building → builds c (history ++ [a]) = 0)
    (hother : ∀ d, d ≠ c → builds d [a] = 0) (honce : builds c (history ++ [a]) ≤ 1) :
    Inv request (w.set c p) (history ++ [a]) where
  slot k v hslot := by
    obtain ⟨d, hd, hmem⟩ := h.slot k v hslot
    exact ⟨d, hd, List.mem_append_left _ hmem⟩
  built d v hd := by
    by_cases hdc : d = c
    · subst hdc
      rw [World.set_self] at hd
      exact hbuilt v hd
    · rw [World.set_of_ne _ _ hdc] at hd
      exact List.mem_append_left _ (h.built d v hd)
  returned d v hd := by
    by_cases hdc : d = c
    · subst hdc
      rw [World.set_self] at hd
      exact hreturned v hd
    · rw [World.set_of_ne _ _ hdc] at hd
      obtain ⟨d', hd', hmem⟩ := h.returned d v hd
      exact ⟨d', hd', List.mem_append_left _ hmem⟩
  failed d e hd := by
    by_cases hdc : d = c
    · subst hdc
      rw [World.set_self] at hd
      exact hfailed e hd
    · rw [World.set_of_ne _ _ hdc] at hd
      exact List.mem_append_left _ (h.failed d e hd)
  fresh d hd := by
    by_cases hdc : d = c
    · subst hdc
      rw [World.set_self] at hd
      exact hfresh hd
    · rw [World.set_of_ne _ _ hdc] at hd
      rw [builds_append, h.fresh d hd, hother d hdc]
  once d := by
    by_cases hdc : d = c
    · subst hdc
      exact honce
    · rw [builds_append, hother d hdc]
      exact h.once d

/-- When all calls have one key: a store leaves the slot filled for good, and who looks after it has
returned without a build. -/
structure Filled (k : K) (w : World C K V E) (history : List (Action C V E)) : Prop where
  slot : (∃ d, .store d ∈ history) → ∃ v, w.slot = some (k, v)
  late : ∀ c, LooksAfterStore c history →
    (∃ v, w.phase c = .returned (.ok v)) ∧ builds c history = 0

/-- A step of a call that has not looked after a store keeps the calls that have. -/
theorem Filled.set {k : K} {w : World C K V E} {history : List (Action C V E)} {c : C}
    {p : Phase V E} {a : Action C V E} (h : Filled k w history)
    (hc : ∀ v, w.phase c ≠ .returned (.ok v)) (hlook : a = .look c → ∀ d, .store d ∉ history)
    (hother : ∀ d, d ≠ c → a ≠ .look d ∧ builds d [a] = 0) (d : C)
    (hd : LooksAfterStore d (history ++ [a])) :
    (∃ v, (w.set c p).phase d = .returned (.ok v)) ∧ builds d (history ++ [a]) = 0 := by
  have hdc : d ≠ c := by
    rintro rfl
    rcases looksAfterStore_concat.1 hd with hlate | ⟨ha, d', hstore⟩
    · obtain ⟨⟨v, hv⟩, -⟩ := h.late d hlate
      exact hc v hv
    · exact hlook ha d' hstore
  obtain ⟨hne, hnone⟩ := hother d hdc
  have hlate := (looksAfterStore_concat.1 hd).resolve_right fun h => hne h.1
  rw [World.set_of_ne _ _ hdc, builds_append, hnone]
  exact h.late d hlate

end Calls

/-! ## Any interleaving -/

variable [DecidableEq C] [DecidableEq K]

def step (request : C → K) (w : World C K V E) : Action C V E → Except Unit (World C K V E)
  | .look c =>
    match w.phase c, w.found (request c) with
    | .waiting, some v => .ok (w.set c (.returned (.ok v)))
    | .waiting, none => .ok (w.set c .building)
    | _, _ => .error ()
  | .build c outcome =>
    match w.phase c, outcome with
    | .building, .ok v => .ok (w.set c (.built v))
    | .building, .error e => .ok (w.set c (.returned (.error e)))
    | _, _ => .error ()
  | .store c =>
    match w.phase c with
    | .built v => .ok { w.set c (.returned (.ok v)) with slot := some (request c, v) }
    | _ => .error ()

/-- **What one step can do.** -/
theorem step_cases {request : C → K} {w w' : World C K V E} {a : Action C V E}
    (h : step request w a = .ok w') :
    (∃ c v, a = .look c ∧ w.phase c = .waiting ∧ w.slot = some (request c, v) ∧
      w' = w.set c (.returned (.ok v))) ∨
    (∃ c, a = .look c ∧ w.phase c = .waiting ∧ w.found (request c) = none ∧
      w' = w.set c .building) ∨
    (∃ c v, a = .build c (.ok v) ∧ w.phase c = .building ∧ w' = w.set c (.built v)) ∨
    (∃ c e, a = .build c (.error e) ∧ w.phase c = .building ∧
      w' = w.set c (.returned (.error e))) ∨
    (∃ c v, a = .store c ∧ w.phase c = .built v ∧
      w' = { w.set c (.returned (.ok v)) with slot := some (request c, v) }) := by
  cases a with
  | look c =>
    simp only [step] at h
    split at h
    · rename_i v hphase hfound
      exact .inl ⟨c, v, rfl, hphase, World.found_eq_some.1 hfound, (Except.ok.inj h).symm⟩
    · rename_i hphase hfound
      exact .inr (.inl ⟨c, rfl, hphase, hfound, (Except.ok.inj h).symm⟩)
    · cases h
  | build c outcome =>
    simp only [step] at h
    split at h
    · rename_i v hphase
      exact .inr (.inr (.inl ⟨c, v, rfl, hphase, (Except.ok.inj h).symm⟩))
    · rename_i e hphase
      exact .inr (.inr (.inr (.inl ⟨c, e, rfl, hphase, (Except.ok.inj h).symm⟩)))
    · cases h
  | store c =>
    simp only [step] at h
    split at h
    · rename_i v hphase
      exact .inr (.inr (.inr (.inr ⟨c, v, rfl, hphase, (Except.ok.inj h).symm⟩)))
    · cases h

variable {request : C → K}

/-- **Every step keeps the invariant.** -/
theorem Inv.step {w w' : World C K V E} {history : List (Action C V E)} {a : Action C V E}
    (h : Inv request w history) (hstep : step request w a = .ok w') :
    Inv request w' (history ++ [a]) := by
  rcases step_cases hstep with ⟨c, v, rfl, hphase, hslot, rfl⟩ | ⟨c, rfl, hphase, -, rfl⟩ |
    ⟨c, v, rfl, hphase, rfl⟩ | ⟨c, e, rfl, hphase, rfl⟩ | ⟨c, v, rfl, hphase, rfl⟩
  · obtain ⟨d, hd, hmem⟩ := h.slot _ v hslot
    refine h.set (by simp) ?_ (by simp) (by simp) (fun _ _ => rfl) ?_
    · rintro v' hv'
      obtain rfl : v = v' := by simpa using hv'
      exact ⟨d, hd, List.mem_append_left _ hmem⟩
    · rw [builds_append]
      exact h.once c
  · refine h.set (by simp) (by simp) (by simp) ?_ (fun _ _ => rfl) ?_
    · intro _
      rw [builds_append, h.fresh c (.inl hphase)]
      rfl
    · rw [builds_append]
      exact h.once c
  · refine h.set ?_ (by simp) (by simp) (by simp) ?_ ?_
    · intro v' hv'
      obtain rfl : v = v' := by simpa using hv'
      exact List.mem_append_right _ (List.mem_singleton_self _)
    · intro d hd
      simp [builds, Ne.symm hd]
    · rw [builds_append, h.fresh c (.inr hphase)]
      simp [builds]
  · refine h.set (by simp) (by simp) ?_ (by simp) ?_ ?_
    · intro e' he'
      obtain rfl : e = e' := by simpa using he'
      exact List.mem_append_right _ (List.mem_singleton_self _)
    · intro d hd
      simp [builds, Ne.symm hd]
    · rw [builds_append, h.fresh c (.inr hphase)]
      simp [builds]
  · have hmem := h.built c v hphase
    have hset : Inv request (w.set c (.returned (.ok v))) (history ++ [.store c]) := by
      refine h.set (by simp) ?_ (by simp) (by simp) (fun _ _ => rfl) ?_
      · intro v' hv'
        obtain rfl : v = v' := by simpa using hv'
        exact ⟨c, rfl, List.mem_append_left _ hmem⟩
      · rw [builds_append]
        exact h.once c
    refine { hset with slot := fun k v' hslot => ?_ }
    obtain ⟨rfl, rfl⟩ : request c = k ∧ v = v' := by simpa using hslot
    exact ⟨c, rfl, List.mem_append_left _ hmem⟩

/-- **After any interleaving** the invariant holds of the world and the steps that happened. -/
theorem run_inv (request : C → K) (actions : List (Action C V E)) :
    Inv request (run (step request) .initial actions).1 (run (step request) .initial actions).2 :=
  Transactions.run_inv (Inv request) .initial (fun _ _ _ _ h hs => h.step hs) actions

/-! ## Calls after a store -/

theorem Filled.step {k : K} (hrequest : ∀ c, request c = k) {w w' : World C K V E}
    {history : List (Action C V E)} {a : Action C V E} (hinv : Inv request w history)
    (h : Filled k w history) (hstep : step request w a = .ok w') :
    Filled k w' (history ++ [a]) := by
  rcases step_cases hstep with ⟨c, v, rfl, hphase, hslot, rfl⟩ | ⟨c, rfl, hphase, hmiss, rfl⟩ |
    ⟨c, v, rfl, hphase, rfl⟩ | ⟨c, e, rfl, hphase, rfl⟩ | ⟨c, v, rfl, hphase, rfl⟩
  · refine ⟨fun _ => ⟨v, by rw [← hrequest c]; exact hslot⟩, fun d hd => ?_⟩
    by_cases hdc : d = c
    · subst hdc
      refine ⟨⟨v, World.set_self ..⟩, ?_⟩
      rw [builds_append, hinv.fresh d (.inl hphase)]
      rfl
    · have hlate := (looksAfterStore_concat.1 hd).resolve_right fun h =>
        hdc (Action.look.inj h.1).symm
      rw [World.set_of_ne _ _ hdc, builds_append]
      exact h.late d hlate
  · have hempty : ∀ d, .store d ∉ history := by
      intro d hstore
      obtain ⟨v, hslot⟩ := h.slot ⟨d, hstore⟩
      rw [hrequest c, World.found_eq_some.2 hslot] at hmiss
      cases hmiss
    refine ⟨?_, h.set (by simp [hphase]) (fun _ => hempty) fun d hd => ⟨?_, rfl⟩⟩
    · rintro ⟨d, hstore⟩
      simp [hempty d] at hstore
    · simpa using Ne.symm hd
  · refine ⟨?_, h.set (by simp [hphase]) (by simp) fun d hd => ⟨by simp, ?_⟩⟩
    · rintro ⟨d, hstore⟩
      exact h.slot ⟨d, by simpa using hstore⟩
    · simp [builds, Ne.symm hd]
  · refine ⟨?_, h.set (by simp [hphase]) (by simp) fun d hd => ⟨by simp, ?_⟩⟩
    · rintro ⟨d, hstore⟩
      exact h.slot ⟨d, by simpa using hstore⟩
    · simp [builds, Ne.symm hd]
  · refine ⟨fun _ => ⟨v, by rw [← hrequest c]⟩, ?_⟩
    exact h.set (by simp [hphase]) (by simp) fun d hd => ⟨by simp, rfl⟩

/-- **Calls for one key**: whoever looks after the first store does not build. -/
theorem builds_eq_zero {k : K} (hrequest : ∀ c, request c = k) (actions : List (Action C V E))
    {c : C} (hc : LooksAfterStore c (run (step request) .initial actions).2) :
    builds c (run (step request) .initial actions).2 = 0 := by
  have hrun : Inv request (run (step request) .initial actions).1
        (run (step request) .initial actions).2 ∧
      Filled k (run (step request) .initial actions).1
        (run (step request) .initial actions).2 := by
    refine Transactions.run_inv (fun w history => Inv request w history ∧ Filled k w history)
      ⟨.initial, ?_, ?_⟩ (fun w history a w' h hs => ⟨h.1.step hs, h.2.step hrequest h.1 hs⟩)
      actions
    · rintro ⟨d, hd⟩
      cases hd
    · rintro d ⟨h₁, d', h₂, heq, -⟩
      simp at heq
  exact (hrun.2.late c hc).2

end SharedSlot
