import Mathlib.Tactic

/-!
# Folds that may stop early

A loop over a list whose body either goes on with a new state or leaves with a value is
`List.foldlM` in `Except`.  This file has the rules such loops are reasoned with:

* `foldlM_append_ok`, `foldlM_append_error` — running a concatenation;
* `foldlM_error_split` — a run that stops stops at one element, after a completed prefix;
* `foldlM_inv` — a step invariant holds at the end of a run;
* `foldlM_rel` — two loops whose steps agree up to a relation agree as runs;
* `foldlM_ok_rel` — two loops that both complete keep a relation that completed steps keep;
* `bind_ok`, `map_ok`, `mapError_ok`, `mapM_ok_iff` — what a completed sequence or `List.mapM`
  computed;
* `foldlM_map_eq_some` — the same for a loop in `Option` whose turns read and then step.
-/

set_option autoImplicit false

namespace ExceptFold

variable {ε ε' σ τ α β : Type}

theorem bind_ok {x : Except ε α} {f : α → Except ε β} {b : β} :
    (x >>= f) = .ok b ↔ ∃ a, x = .ok a ∧ f a = .ok b := by
  cases x <;> simp [bind, Except.bind]

theorem bind_error {x : Except ε α} {f : α → Except ε β} {e : ε} :
    (x >>= f) = .error e ↔ x = .error e ∨ ∃ a, x = .ok a ∧ f a = .error e := by
  cases x <;> simp [bind, Except.bind]

theorem mapError_ok {f : ε → ε'} {x : Except ε α} {a : α} :
    x.mapError f = .ok a ↔ x = .ok a := by
  cases x <;> simp [Except.mapError]

theorem mapError_error {f : ε → ε'} {x : Except ε α} {e' : ε'} :
    x.mapError f = .error e' ↔ ∃ e, x = .error e ∧ f e = e' := by
  cases x <;> simp [Except.mapError]

theorem map_ok {f : α → β} {x : Except ε α} {b : β} :
    x.map f = .ok b ↔ ∃ a, x = .ok a ∧ f a = b := by
  cases x <;> simp [Except.map]

theorem mapError_bind {x : Except ε α} {f : α → Except ε β} (g : ε → ε') :
    (x >>= f).mapError g = x.mapError g >>= fun a => (f a).mapError g := by
  cases x <;> rfl

theorem mapM_ok_iff {f : α → Except ε β} : ∀ {xs : List α} {ys : List β},
    xs.mapM f = .ok ys ↔ List.Forall₂ (fun a b => f a = .ok b) xs ys := by
  intro xs
  induction xs with
  | nil => simp [pure, Except.pure, eq_comm]
  | cons a xs ih =>
    intro ys
    rw [List.mapM_cons, bind_ok]
    constructor
    · rintro ⟨b, hb, h⟩
      obtain ⟨bs, hbs, hret⟩ := bind_ok.1 h
      rw [← Except.ok.inj hret]
      exact .cons hb (ih.1 hbs)
    · rintro (_ | ⟨hb, hbs⟩)
      exact ⟨_, hb, bind_ok.2 ⟨_, ih.2 hbs, rfl⟩⟩

theorem exists_mapM_ok {f : α → Except ε β} : ∀ {xs : List α}, (∀ a ∈ xs, ∃ b, f a = .ok b) →
    ∃ ys, xs.mapM f = .ok ys := by
  intro xs
  induction xs with
  | nil => exact fun _ => ⟨[], rfl⟩
  | cons a xs ih =>
    intro h
    obtain ⟨b, hb⟩ := h a List.mem_cons_self
    obtain ⟨bs, hbs⟩ := ih fun a' ha' => h a' (List.mem_cons_of_mem _ ha')
    exact ⟨b :: bs, mapM_ok_iff.2 (.cons hb (mapM_ok_iff.1 hbs))⟩

theorem mem_of_mapM_ok {f : α → Except ε β} {xs : List α} {ys : List β} (h : xs.mapM f = .ok ys)
    {a : α} (ha : a ∈ xs) : ∃ b ∈ ys, f a = .ok b := by
  induction mapM_ok_iff.1 h with
  | nil => cases ha
  | cons hb htail ih =>
    rcases List.mem_cons.1 ha with rfl | ha'
    · exact ⟨_, List.mem_cons_self, hb⟩
    · obtain ⟨b, hmem, hf⟩ := ih (mapM_ok_iff.2 htail) ha'
      exact ⟨b, List.mem_cons_of_mem _ hmem, hf⟩

theorem exists_of_mem_mapM_ok {f : α → Except ε β} {xs : List α} {ys : List β}
    (h : xs.mapM f = .ok ys) {b : β} (hb : b ∈ ys) : ∃ a ∈ xs, f a = .ok b := by
  induction mapM_ok_iff.1 h with
  | nil => cases hb
  | cons hf htail ih =>
    rcases List.mem_cons.1 hb with rfl | hb'
    · exact ⟨_, List.mem_cons_self, hf⟩
    · obtain ⟨a, hmem, hf'⟩ := ih (mapM_ok_iff.2 htail) hb'
      exact ⟨a, List.mem_cons_of_mem _ hmem, hf'⟩

theorem mapM_append_ok {f : α → Except ε β} {xs ys : List α} {zs : List β}
    (h : (xs ++ ys).mapM f = .ok zs) :
    ∃ us vs, zs = us ++ vs ∧ xs.mapM f = .ok us ∧ ys.mapM f = .ok vs := by
  rw [List.mapM_append] at h
  obtain ⟨us, hus, h⟩ := bind_ok.1 h
  obtain ⟨vs, hvs, h⟩ := bind_ok.1 h
  exact ⟨us, vs, (Except.ok.inj h).symm, hus, hvs⟩

theorem foldlM_nil_ok {f : σ → α → Except ε σ} {s s' : σ} :
    [].foldlM f s = .ok s' ↔ s = s' := by
  simp [pure, Except.pure]

theorem foldlM_cons_of_ok {f : σ → α → Except ε σ} {s s' : σ} {a : α} (h : f s a = .ok s')
    (xs : List α) : (a :: xs).foldlM f s = xs.foldlM f s' := by
  rw [List.foldlM_cons, h]; rfl

theorem foldlM_cons_of_error {f : σ → α → Except ε σ} {s : σ} {a : α} {e : ε}
    (h : f s a = .error e) (xs : List α) : (a :: xs).foldlM f s = .error e := by
  rw [List.foldlM_cons, h]; rfl

theorem foldlM_cons_ok {f : σ → α → Except ε σ} {s r : σ} {a : α} {xs : List α} :
    (a :: xs).foldlM f s = .ok r ↔ ∃ s', f s a = .ok s' ∧ xs.foldlM f s' = .ok r := by
  cases h : f s a with
  | error e => simp [foldlM_cons_of_error h]
  | ok s' => simp [foldlM_cons_of_ok h]

theorem foldlM_append_ok {f : σ → α → Except ε σ} {xs : List α} {s s' : σ}
    (h : xs.foldlM f s = .ok s') (ys : List α) :
    (xs ++ ys).foldlM f s = ys.foldlM f s' := by
  rw [List.foldlM_append, h]; rfl

theorem foldlM_append_error {f : σ → α → Except ε σ} {xs : List α} {s : σ} {e : ε}
    (h : xs.foldlM f s = .error e) (ys : List α) :
    (xs ++ ys).foldlM f s = .error e := by
  rw [List.foldlM_append, h]; rfl

theorem foldlM_append_ok_iff {f : σ → α → Except ε σ} {xs ys : List α} {s r : σ} :
    (xs ++ ys).foldlM f s = .ok r ↔
      ∃ s', xs.foldlM f s = .ok s' ∧ ys.foldlM f s' = .ok r := by
  cases h : xs.foldlM f s with
  | error e => simp [foldlM_append_error h]
  | ok s' => simp [foldlM_append_ok h]

/-- A run that stops: the elements before the stopping one were all processed. -/
theorem foldlM_error_split {f : σ → α → Except ε σ} {e : ε} :
    ∀ {xs : List α} {s : σ}, xs.foldlM f s = .error e →
      ∃ pre a post s', xs = pre ++ a :: post ∧ pre.foldlM f s = .ok s' ∧ f s' a = .error e := by
  intro xs
  induction xs with
  | nil =>
    intro s h
    simp [pure, Except.pure] at h
  | cons a xs ih =>
    intro s h
    cases ha : f s a with
    | error e' =>
      rw [foldlM_cons_of_error ha] at h
      cases h
      exact ⟨[], a, xs, s, rfl, rfl, ha⟩
    | ok s₁ =>
      rw [foldlM_cons_of_ok ha] at h
      obtain ⟨pre, b, post, s', rfl, hpre, hb⟩ := ih h
      exact ⟨a :: pre, b, post, s', rfl, by rw [foldlM_cons_of_ok ha, hpre], hb⟩

/-- **Invariant rule**: what every continuing step preserves holds after a completed run. -/
theorem foldlM_inv {f : σ → α → Except ε σ} {P : σ → Prop}
    (step : ∀ s a s', P s → f s a = .ok s' → P s') :
    ∀ {xs : List α} {s r : σ}, P s → xs.foldlM f s = .ok r → P r := by
  intro xs
  induction xs with
  | nil =>
    intro s r hs h
    rw [foldlM_nil_ok] at h
    exact h ▸ hs
  | cons a xs ih =>
    intro s r hs h
    obtain ⟨s', ha, hr⟩ := foldlM_cons_ok.1 h
    exact ih (step s a s' hs ha) hr

/-- Two outcomes agree: both go on in related states, or both stop with related values. -/
inductive Agree (R : σ → τ → Prop) (E : ε → ε' → Prop) : Except ε σ → Except ε' τ → Prop where
  | ok {s : σ} {t : τ} (h : R s t) : Agree R E (.ok s) (.ok t)
  | error {e : ε} {e' : ε'} (h : E e e') : Agree R E (.error e) (.error e')

/-- **Simulation rule**: loops whose steps agree from related states agree as runs. -/
theorem foldlM_rel {R : σ → τ → Prop} {E : ε → ε' → Prop} {A : α → β → Prop}
    {f : σ → α → Except ε σ} {g : τ → β → Except ε' τ}
    (step : ∀ s t a b, R s t → A a b → Agree R E (f s a) (g t b)) :
    ∀ {xs : List α} {ys : List β} {s : σ} {t : τ}, List.Forall₂ A xs ys → R s t →
      Agree R E (xs.foldlM f s) (ys.foldlM g t)
  | [], [], _, _, _, hR => .ok hR
  | a :: xs, b :: ys, s, t, .cons hab hxy, hR => by
    have hs := step s t a b hR hab
    cases hf : f s a with
    | error e =>
      rw [hf] at hs
      cases hg : g t b with
      | error e' =>
        rw [hg] at hs
        rw [foldlM_cons_of_error hf, foldlM_cons_of_error hg]
        cases hs with
        | error h => exact .error h
      | ok t' => rw [hg] at hs; cases hs
    | ok s' =>
      rw [hf] at hs
      cases hg : g t b with
      | error e' => rw [hg] at hs; cases hs
      | ok t' =>
        rw [hg] at hs
        rw [foldlM_cons_of_ok hf, foldlM_cons_of_ok hg]
        cases hs with
        | ok h => exact foldlM_rel step hxy h

/-- **Relational rule for completed runs**: what every pair of continuing steps keeps holds of the
ends of two completed runs over one list, whatever stops either of them elsewhere. -/
theorem foldlM_ok_rel {R : σ → τ → Prop} {f : σ → α → Except ε σ} {g : τ → α → Except ε' τ}
    (step : ∀ s t a s' t', R s t → f s a = .ok s' → g t a = .ok t' → R s' t') :
    ∀ {xs : List α} {s s' : σ} {t t' : τ}, R s t → xs.foldlM f s = .ok s' →
      xs.foldlM g t = .ok t' → R s' t' := by
  intro xs
  induction xs with
  | nil =>
    intro s s' t t' hR hs ht
    rw [foldlM_nil_ok] at hs ht
    rw [← hs, ← ht]
    exact hR
  | cons a xs ih =>
    intro s s' t t' hR hs ht
    obtain ⟨s₁, hs₁, hs⟩ := foldlM_cons_ok.1 hs
    obtain ⟨t₁, ht₁, ht⟩ := foldlM_cons_ok.1 ht
    exact ih (step s t a s₁ t₁ hR hs₁ ht₁) hs ht

/-- A loop in `Option` whose turns read before they step: all reads succeed, or it stops. -/
theorem foldlM_map_eq_some {f : α → Option β} {g : σ → β → σ} : ∀ {xs : List α} {s t : σ},
    xs.foldlM (fun s a => (f a).map (g s)) s = some t ↔
      ∃ ys, List.Forall₂ (fun a b => f a = some b) xs ys ∧ t = ys.foldl g s := by
  intro xs
  induction xs with
  | nil =>
    intro s t
    rw [List.foldlM_nil, Option.pure_def, Option.some_inj]
    constructor
    · rintro rfl
      exact ⟨[], .nil, rfl⟩
    · rintro ⟨ys, hys, rfl⟩
      cases hys
      rfl
  | cons a xs ih =>
    intro s t
    rw [List.foldlM_cons, Option.bind_eq_bind, Option.bind_eq_some_iff]
    constructor
    · rintro ⟨s', hs', h⟩
      obtain ⟨b, hb, rfl⟩ := Option.map_eq_some_iff.1 hs'
      obtain ⟨ys, hys, rfl⟩ := ih.1 h
      exact ⟨b :: ys, .cons hb hys, rfl⟩
    · rintro ⟨ys, hys, rfl⟩
      obtain ⟨b, bs, hb, hbs, rfl⟩ := List.forall₂_cons_left_iff.1 hys
      exact ⟨g s b, Option.map_eq_some_iff.2 ⟨b, hb, rfl⟩, ih.2 ⟨bs, hbs, rfl⟩⟩

end ExceptFold
