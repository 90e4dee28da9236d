import Mathlib.Tactic

/-!
# Calls that commit or revert

A machine answers a call with a new state, or reverts it and keeps the state it had.  The calls it
committed are its history.

* `run_concat` — the last call of a sequence commits or changes nothing;
* `run_inv` — what holds before any call and is kept by every committed call, holds of the state
  and the history after any sequence of calls;
* `runEmit_inv` — the same for a machine that emits an event with every commit.
-/

set_option autoImplicit false

namespace Transactions

variable {σ κ ε : Type} (step : σ → κ → Except ε σ)

/-- One call: the committed state with the call added to the history, or no change. -/
def attempt (p : σ × List κ) (call : κ) : σ × List κ :=
  match step p.1 call with
  | .ok s => (s, p.2 ++ [call])
  | .error _ => p

/-- The state and the history after a sequence of calls. -/
def run (s : σ) (calls : List κ) : σ × List κ := calls.foldl (attempt step) (s, [])

variable {step}

theorem run_concat (s : σ) (calls : List κ) (call : κ) :
    run step s (calls ++ [call]) = attempt step (run step s calls) call := by
  simp [run]

theorem foldl_attempt (calls : List κ) : ∀ (s : σ) (history : List κ),
    calls.foldl (attempt step) (s, history) =
      ((run step s calls).1, history ++ (run step s calls).2) := by
  induction calls with
  | nil => intro s history; simp [run]
  | cons call calls ih =>
    intro s history
    unfold run
    simp only [List.foldl_cons, attempt]
    cases step s call with
    | ok s' => simp only [ih s', List.nil_append, List.append_assoc]
    | error e => exact ih s history

/-- Later calls extend the history. -/
theorem run_append (s : σ) (calls more : List κ) :
    run step s (calls ++ more) =
      ((run step (run step s calls).1 more).1,
        (run step s calls).2 ++ (run step (run step s calls).1 more).2) := by
  rw [run, List.foldl_append]
  exact foldl_attempt more _ _

theorem attempt_of_ok {p : σ × List κ} {call : κ} {s : σ} (h : step p.1 call = .ok s) :
    attempt step p call = (s, p.2 ++ [call]) := by
  simp [attempt, h]

theorem attempt_of_error {p : σ × List κ} {call : κ} {e : ε} (h : step p.1 call = .error e) :
    attempt step p call = p := by
  simp [attempt, h]

/-- The history lists calls that were made. -/
theorem mem_of_mem_history {s : σ} {calls : List κ} {call : κ}
    (h : call ∈ (run step s calls).2) : call ∈ calls := by
  induction calls using List.reverseRecOn with
  | nil => cases h
  | append_singleton calls last ih =>
    rw [run_concat] at h
    cases hlast : step (run step s calls).1 last with
    | ok s' =>
      rw [attempt_of_ok hlast] at h
      rcases List.mem_append.1 h with h | h
      · exact List.mem_append_left _ (ih h)
      · exact List.mem_append_right _ h
    | error e =>
      rw [attempt_of_error hlast] at h
      exact List.mem_append_left _ (ih h)

/-- **The invariant rule.** -/
theorem run_inv (Inv : σ → List κ → Prop) {s : σ} (hstart : Inv s [])
    (hstep : ∀ s history call s', Inv s history → step s call = .ok s' →
      Inv s' (history ++ [call])) (calls : List κ) :
    Inv (run step s calls).1 (run step s calls).2 := by
  induction calls using List.reverseRecOn with
  | nil => exact hstart
  | append_singleton calls call ih =>
    rw [run_concat]
    cases h : step (run step s calls).1 call with
    | ok s' =>
      rw [attempt_of_ok h]
      exact hstep _ _ _ _ ih h
    | error e =>
      rw [attempt_of_error h]
      exact ih

/-! ## Events -/

section Events

variable {ω : Type} (emit : σ → κ → Except ε (σ × ω))

/-- One call of a machine that emits an event when it commits. -/
def attemptEmit (p : σ × List ω) (call : κ) : σ × List ω :=
  match emit p.1 call with
  | .ok (s, event) => (s, p.2 ++ [event])
  | .error _ => p

/-- The state after a sequence of calls, and the events they emitted. -/
def runEmit (s : σ) (calls : List κ) : σ × List ω := calls.foldl (attemptEmit emit) (s, [])

/-- The machine without its events. -/
def mute (s : σ) (call : κ) : Except ε σ := (emit s call).map Prod.fst

variable {emit}

theorem runEmit_concat (s : σ) (calls : List κ) (call : κ) :
    runEmit emit s (calls ++ [call]) = attemptEmit emit (runEmit emit s calls) call := by
  simp [runEmit]

/-- **The invariant rule with events.** -/
theorem runEmit_inv (Inv : σ → List κ → List ω → Prop) {s : σ} (hstart : Inv s [] [])
    (hstep : ∀ s history events call s' event, Inv s history events →
      emit s call = .ok (s', event) → Inv s' (history ++ [call]) (events ++ [event]))
    (calls : List κ) :
    (runEmit emit s calls).1 = (run (mute emit) s calls).1 ∧
      Inv (run (mute emit) s calls).1 (run (mute emit) s calls).2 (runEmit emit s calls).2 := by
  induction calls using List.reverseRecOn with
  | nil => exact ⟨rfl, hstart⟩
  | append_singleton calls call ih =>
    obtain ⟨hstate, hinv⟩ := ih
    rw [run_concat, runEmit_concat]
    cases h : emit (run (mute emit) s calls).1 call with
    | ok r =>
      have hmute : mute emit (run (mute emit) s calls).1 call = .ok r.1 := by
        rw [mute, h]
        rfl
      rw [attempt_of_ok hmute, attemptEmit, hstate, h]
      exact ⟨rfl, hstep _ _ _ _ _ _ hinv h⟩
    | error e =>
      have hmute : mute emit (run (mute emit) s calls).1 call = .error e := by
        rw [mute, h]
        rfl
      rw [attempt_of_error hmute, attemptEmit, hstate, h]
      exact ⟨hstate, hinv⟩

end Events

end Transactions
