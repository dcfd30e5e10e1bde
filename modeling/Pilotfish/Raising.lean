import Mathlib.Data.List.Basic

/-!
# What a computation can raise

The dual of a postcondition: a property of whatever a computation raises, and how it composes.

Results:
1. `onlyRaises_bind`, `onlyRaises_mapM`: what a sequence of computations raises is what one of
   them does, once those before it returned.
2. `onlyRaises_iff_returns`, `onlyRaises_bind_iff`: where nothing that is raised has the
   property, having only that raised is returning.
-/

namespace Raising

variable {ε α β : Type} {P Q : ε → Prop} {x : Except ε α} {f : α → Except ε β}

/-- Whatever is raised has the property. -/
def OnlyRaises (P : ε → Prop) (x : Except ε α) : Prop := ∀ e, x = .error e → P e

@[simp] theorem onlyRaises_ok (a : α) : OnlyRaises P (.ok a) := fun _ h => by cases h

@[simp] theorem onlyRaises_pure (a : α) : OnlyRaises P (pure a : Except ε α) := onlyRaises_ok a

@[simp] theorem onlyRaises_error {e : ε} : OnlyRaises P (.error e : Except ε α) ↔ P e := by
  constructor
  · intro h
    exact h e rfl
  · rintro he _ ⟨⟩
    exact he

@[simp] theorem onlyRaises_bind :
    OnlyRaises P (x >>= f) ↔ OnlyRaises P x ∧ ∀ a, x = .ok a → OnlyRaises P (f a) := by
  cases x with
  | error e =>
    have hbind : (Except.error e >>= f) = .error e := rfl
    simp [hbind]
  | ok a =>
    have hbind : (Except.ok a >>= f) = f a := rfl
    simp [hbind]

theorem onlyRaises_bind_unit {x : Except ε Unit} {f : Unit → Except ε β} :
    OnlyRaises P (x >>= f) ↔ OnlyRaises P x ∧ (x = .ok () → OnlyRaises P (f ())) := by
  rw [onlyRaises_bind]
  exact and_congr_right fun _ => ⟨fun h => h (), fun h _ => h⟩

@[simp] theorem onlyRaises_map {g : α → β} : OnlyRaises P (g <$> x) ↔ OnlyRaises P x := by
  cases x with
  | error e =>
    have hmap : g <$> (Except.error e : Except ε α) = .error e := rfl
    simp [hmap]
  | ok a =>
    have hmap : g <$> (Except.ok a : Except ε α) = .ok (g a) := rfl
    simp [hmap]

theorem OnlyRaises.mono (h : OnlyRaises P x) (hPQ : ∀ e, P e → Q e) : OnlyRaises Q x :=
  fun e he => hPQ e (h e he)

theorem onlyRaises_mapM {xs : List α} (h : ∀ a ∈ xs, OnlyRaises P (f a)) :
    OnlyRaises P (xs.mapM f) := by
  induction xs with
  | nil => exact onlyRaises_ok []
  | cons a xs ih =>
    rw [List.mapM_cons, onlyRaises_bind]
    refine ⟨h a List.mem_cons_self, fun _ _ => onlyRaises_bind.mpr ⟨?_, fun _ _ => ?_⟩⟩
    · exact ih fun b hb => h b (List.mem_cons_of_mem _ hb)
    · exact onlyRaises_ok _

/-- A computation that never raises what is allowed has to return. -/
theorem onlyRaises_iff_returns (h : OnlyRaises (fun e => ¬P e) x) :
    OnlyRaises P x ↔ ∃ a, x = .ok a := by
  constructor
  · intro hP
    cases x with
    | error e => exact absurd (hP e rfl) (h e rfl)
    | ok a => exact ⟨a, rfl⟩
  · rintro ⟨a, rfl⟩
    exact onlyRaises_ok a

/-- What follows such a computation matters only where it returns. -/
theorem onlyRaises_bind_iff (h : OnlyRaises (fun e => ¬P e) x) :
    OnlyRaises P (x >>= f) ↔ ∃ a, x = .ok a ∧ OnlyRaises P (f a) := by
  rw [onlyRaises_bind, onlyRaises_iff_returns h]
  constructor
  · rintro ⟨⟨a, ha⟩, hf⟩
    exact ⟨a, ha, hf a ha⟩
  · rintro ⟨a, rfl, hf⟩
    exact ⟨⟨a, rfl⟩, fun b hb => Except.ok.inj hb ▸ hf⟩

end Raising
