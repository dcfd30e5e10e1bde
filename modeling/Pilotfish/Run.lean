import Mathlib.Init

/-!
# Runs

A system is a step function on states and events; a run is a list of events taken in order.

Results:
1. `run_invariant`: what holds at the start and is kept by every step holds at the end.
2. `along_iff`: a condition on the steps of a run, step by step.
3. `Along.imp`, `Along.invariant`: a condition that every step of a run meets is traded for
   another, or for an invariant.
-/

namespace Run

variable {σ ε : Type} (step : σ → ε → σ)

/-- The state after a list of events. -/
def run (s : σ) (events : List ε) : σ := events.foldl step s

@[simp] theorem run_nil (s : σ) : run step s [] = s := rfl

@[simp] theorem run_cons (s : σ) (e : ε) (events : List ε) :
    run step s (e :: events) = run step (step s e) events := rfl

theorem run_append (s : σ) (before after : List ε) :
    run step s (before ++ after) = run step (run step s before) after := List.foldl_append

variable {step} {I : σ → Prop} {ok : ε → Prop}

/-- The invariant rule. Events are restricted by `ok`, the run's own assumption on its
inputs. -/
theorem run_invariant (keep : ∀ s e, I s → ok e → I (step s e)) {s : σ} (init : I s)
    {events : List ε} (hok : ∀ e ∈ events, ok e) : I (run step s events) := by
  induction events generalizing s with
  | nil => exact init
  | cons e events ih =>
    exact ih (keep s e init (hok e List.mem_cons_self))
      fun e' he' => hok e' (List.mem_cons_of_mem _ he')

/-! ## Conditions on the steps of a run -/

/-- Every step meets a condition on the state before it. -/
def Along (step : σ → ε → σ) (ok : σ → ε → Prop) : σ → List ε → Prop
  | _, [] => True
  | s, e :: events => ok s e ∧ Along step ok (step s e) events

theorem along_of_forall {ok : ε → Prop} {events : List ε} (h : ∀ e ∈ events, ok e) (s : σ) :
    Along step (fun _ e => ok e) s events := by
  induction events generalizing s with
  | nil => trivial
  | cons e events ih =>
    exact ⟨h e List.mem_cons_self, ih (fun e' he' => h e' (List.mem_cons_of_mem _ he')) _⟩

theorem along_append {ok : σ → ε → Prop} {s : σ} {before after : List ε} :
    Along step ok s (before ++ after) ↔
    Along step ok s before ∧ Along step ok (run step s before) after := by
  induction before generalizing s with
  | nil => simp [Along]
  | cons e before ih => simp [Along, ih, and_assoc]

/-- A condition on the steps is one on what is reached before each of them. -/
theorem along_iff {ok : σ → ε → Prop} {s : σ} {events : List ε} : Along step ok s events ↔
    ∀ before e after, before ++ e :: after = events → ok (run step s before) e := by
  constructor
  · rintro h before e after rfl
    exact (along_append.mp h).2.1
  · intro h
    induction events generalizing s with
    | nil => trivial
    | cons e events ih =>
      refine ⟨h [] e events rfl, ih ?_⟩
      intro before e' after hsplit
      exact h (e :: before) e' after (congrArg (e :: ·) hsplit)

/-- The rule for such a condition: it keeps an invariant under which a step is as it should be. -/
theorem Along.imp {ok good : σ → ε → Prop} (keep : ∀ s e, I s → ok s e → I (step s e) ∧ good s e)
    {s : σ} (init : I s) {events : List ε} (h : Along step ok s events) :
    Along step good s events := by
  induction events generalizing s with
  | nil => trivial
  | cons e events ih =>
    obtain ⟨hok, hrest⟩ := h
    obtain ⟨hkept, hgood⟩ := keep s e init hok
    exact ⟨hgood, ih hkept hrest⟩

/-- What holds at the start and is kept by every step that meets the condition holds at the end. -/
theorem Along.invariant {ok : σ → ε → Prop} (keep : ∀ s e, I s → ok s e → I (step s e)) {s : σ}
    (init : I s) {events : List ε} (h : Along step ok s events) : I (run step s events) := by
  induction events generalizing s with
  | nil => exact init
  | cons e events ih =>
    obtain ⟨hok, hrest⟩ := h
    exact ih (keep s e init hok) hrest

end Run
