import Mathlib.Init

/-!
# Calls that may raise

A call takes a state, returns or raises, and leaves a state behind. What it changed before
raising stays changed, and a handler runs from there.

Results:
1. `bind_of_ok`, `bind_of_error`, `bind_eq_ok_iff`: how a sequence of calls unfolds.
2. `Within.bind`, `Within.tryCatch`: a preorder on states that every call respects is
   respected by the sequence, on the normal and on the exceptional exit.
-/

/-- A call with results `α`, exceptions `ε` and state `σ`. -/
def Effect (ε σ α : Type) : Type := σ → Except ε α × σ

namespace Effect

variable {ε σ τ α β : Type}

instance : Monad (Effect ε σ) where
  pure a := fun s => (.ok a, s)
  bind m f := fun s =>
    match m s with
    | (.ok a, s') => f a s'
    | (.error e, s') => (.error e, s')

instance : MonadExcept ε (Effect ε σ) where
  throw e := fun s => (.error e, s)
  tryCatch m handler := fun s =>
    match m s with
    | (.ok a, s') => (.ok a, s')
    | (.error e, s') => handler e s'

/-- A computation that reads and changes nothing. -/
def lift (r : Except ε α) : Effect ε σ α := fun s => (r, s)

/-- Read a part of the state. -/
def read (f : σ → α) : Effect ε σ α := fun s => (.ok (f s), s)

/-- Change the state. -/
def update (f : σ → σ) : Effect ε σ Unit := fun s => (.ok (), f s)

/-- A call on a part of the state. -/
def zoom (get : τ → σ) (set : σ → τ → τ) (m : Effect ε σ α) : Effect ε τ α := fun t =>
  match m (get t) with
  | (r, s) => (r, set s t)

/-! ## Unfolding -/

@[simp] theorem pure_apply (a : α) (s : σ) : (pure a : Effect ε σ α) s = (.ok a, s) := rfl

@[simp] theorem throw_apply (e : ε) (s : σ) : (throw e : Effect ε σ α) s = (.error e, s) := rfl

@[simp] theorem lift_apply (r : Except ε α) (s : σ) : (lift r : Effect ε σ α) s = (r, s) := rfl

@[simp] theorem read_apply (f : σ → α) (s : σ) : (read f : Effect ε σ α) s = (.ok (f s), s) := rfl

@[simp] theorem update_apply (f : σ → σ) (s : σ) :
    (update f : Effect ε σ Unit) s = (.ok (), f s) := rfl

theorem zoom_eq {get : τ → σ} {set : σ → τ → τ} {m : Effect ε σ α} {t : τ} {r : Except ε α} {s : σ}
    (h : m (get t) = (r, s)) : zoom get set m t = (r, set s t) := by
  rw [zoom, h]

theorem bind_of_ok {m : Effect ε σ α} {f : α → Effect ε σ β} {s s' : σ} {a : α}
    (h : m s = (.ok a, s')) : (m >>= f) s = f a s' := by
  show (match m s with
    | (.ok a, s') => f a s'
    | (.error e, s') => ((.error e, s') : Except ε β × σ)) = _
  rw [h]

theorem bind_of_error {m : Effect ε σ α} {f : α → Effect ε σ β} {s s' : σ} {e : ε}
    (h : m s = (.error e, s')) : (m >>= f) s = (.error e, s') := by
  show (match m s with
    | (.ok a, s') => f a s'
    | (.error e, s') => ((.error e, s') : Except ε β × σ)) = _
  rw [h]

/-- Where two calls come to the same, so does what follows them. -/
theorem bind_of_eq {m m' : Effect ε σ α} {s s' : σ} (h : m s = m' s') (f : α → Effect ε σ β) :
    (m >>= f) s = (m' >>= f) s' := by
  rcases hm : m' s' with ⟨e | a, s''⟩
  · rw [bind_of_error hm, bind_of_error (h.trans hm)]
  · rw [bind_of_ok hm, bind_of_ok (h.trans hm)]

theorem read_bind (g : σ → α) (f : α → Effect ε σ β) (s : σ) : (read g >>= f) s = f (g s) s := rfl

theorem lift_bind_of_ok {r : Except ε α} {a : α} (h : r = .ok a) (f : α → Effect ε σ β) (s : σ) :
    (lift r >>= f) s = f a s := by
  subst h
  rfl

theorem lift_bind_of_error {r : Except ε α} {e : ε} (h : r = .error e) (f : α → Effect ε σ β)
    (s : σ) : (lift r >>= f) s = (.error e, s) := by
  subst h
  rfl

theorem tryCatch_of_ok {m : Effect ε σ α} {handler : ε → Effect ε σ α} {s s' : σ} {a : α}
    (h : m s = (.ok a, s')) : (tryCatch m handler) s = (.ok a, s') := by
  show (match m s with
    | (.ok a, s') => ((.ok a, s') : Except ε α × σ)
    | (.error e, s') => handler e s') = _
  rw [h]

theorem tryCatch_of_error {m : Effect ε σ α} {handler : ε → Effect ε σ α} {s s' : σ} {e : ε}
    (h : m s = (.error e, s')) : (tryCatch m handler) s = handler e s' := by
  show (match m s with
    | (.ok a, s') => ((.ok a, s') : Except ε α × σ)
    | (.error e, s') => handler e s') = _
  rw [h]

theorem bind_eq_ok_iff {m : Effect ε σ α} {f : α → Effect ε σ β} {s t : σ} {b : β} :
    (m >>= f) s = (.ok b, t) ↔ ∃ a s', m s = (.ok a, s') ∧ f a s' = (.ok b, t) := by
  constructor
  · intro h
    rcases hm : m s with ⟨_ | a, s'⟩
    · rw [bind_of_error hm] at h
      cases h
    · exact ⟨a, s', rfl, by rwa [bind_of_ok hm] at h⟩
  · rintro ⟨a, s', hm, hf⟩
    rw [bind_of_ok hm, hf]

theorem bind_assoc {γ : Type} (m : Effect ε σ α) (f : α → Effect ε σ β) (g : β → Effect ε σ γ) :
    (m >>= f) >>= g = m >>= fun a => f a >>= g := by
  funext s
  rcases hm : m s with ⟨_ | a, s'⟩
  · rw [bind_of_error hm, bind_of_error (bind_of_error hm)]
  · have hf : (m >>= f) s = f a s' := bind_of_ok hm
    rw [bind_of_ok hm, bind_of_eq hf]

/-- What is made of a result does not show in the state. -/
theorem snd_bind_pure (m : Effect ε σ α) (f : α → β) (s : σ) :
    ((m >>= fun a => pure (f a)) s).2 = (m s).2 := by
  rcases hm : m s with ⟨e | a, s'⟩
  · rw [bind_of_error hm]
  · rw [bind_of_ok hm]
    rfl

/-! ## Staying within a preorder -/

/-- Whatever way the call ends, it moves the state along `R`. -/
def Within (R : σ → σ → Prop) (m : Effect ε σ α) : Prop := ∀ s, R s (m s).2

section Within
variable {R : σ → σ → Prop}

theorem Within.lift (refl : ∀ s, R s s) (r : Except ε α) : Within R (lift r) := refl

theorem Within.bind (trans : ∀ {a b c}, R a b → R b c → R a c) {m : Effect ε σ α}
    {f : α → Effect ε σ β} (hm : Within R m) (hf : ∀ a, Within R (f a)) : Within R (m >>= f) := by
  intro s
  have h := hm s
  rcases hms : m s with ⟨_ | a, s'⟩
  · rw [bind_of_error hms]
    rwa [hms] at h
  · rw [bind_of_ok hms]
    rw [hms] at h
    exact trans h (hf a s')

theorem Within.tryCatch (trans : ∀ {a b c}, R a b → R b c → R a c) {m : Effect ε σ α}
    {handler : ε → Effect ε σ α} (hm : Within R m) (hh : ∀ e, Within R (handler e)) :
    Within R (tryCatch m handler) := by
  intro s
  have h := hm s
  rcases hms : m s with ⟨e | a, s'⟩
  · rw [tryCatch_of_error hms]
    rw [hms] at h
    exact trans h (hh e s')
  · rw [tryCatch_of_ok hms]
    rwa [hms] at h

end Within

end Effect
