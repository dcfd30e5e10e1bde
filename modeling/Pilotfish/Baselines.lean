import Pilotfish.Metrics
import Pilotfish.Selectors

/-!
# The selectors under comparison

Three baselines and the governed path. Every selector sees the same thing the agent sees, which is
observations, never the simulator's private truth.

Results:
1. `call_of_silence`: where no link is observed up, no shipped selector chooses one.
-/

namespace Pilotfish
open Python

/-- A selector: how it is reset, what it chooses in a step, and whether it says it is degraded. -/
structure Selector (σ : Type) where
  reset : σ → Except Exc σ
  call : SelectorContext → Effect Exc σ Choices
  lastDegraded : σ → Bool

/-- Every class is given the same link. -/
def everyClass (ctx : SelectorContext) (linkId : Option String) : Choices :=
  ctx.classes.map fun c => (c.1, linkId)

/-- The best among all links. -/
def bestOfAll (ctx : SelectorContext) : Option String :=
  bestByRtt ctx.evidence ((ctx.links.map Prod.fst).insertionSort (· ≤ ·))

/-- Always take the lowest observed latency that is up. -/
def greedy : Selector Unit where
  reset := pure
  call ctx := pure (everyClass ctx (bestOfAll ctx))
  lastDegraded _ := false

/-- Walk a fixed list and take the first link that is up. -/
def staticPriority (order : List String) : Selector Unit where
  reset := pure
  call ctx := pure (everyClass ctx (order.find? (observedUp ctx.evidence)))
  lastDegraded _ := false

/-- What the hysteresis selector holds, and since when. -/
structure Hysteresis where
  current : Option String := none
  since : Option DateTime := none

namespace Hysteresis

/-- The seconds a link has been held; infinite where none has. -/
def elapsed (s : Hysteresis) (now : DateTime) : Double :=
  match s.since with
  | none => .inf
  | some since => .fin (now.totalSeconds since)

/-- What is held after a step. -/
def next (dwellS : Double) (ctx : SelectorContext) (s : Hysteresis) : Hysteresis :=
  let best := bestOfAll ctx
  let heldIsLive := s.current.any (observedUp ctx.evidence)
  if s.current = none ∨ heldIsLive = false then ⟨best, some ctx.now⟩
  else if best ≠ s.current ∧ dwellS.le (s.elapsed ctx.now) then ⟨best, some ctx.now⟩
  else s

end Hysteresis

/-- Greedy, but refuse to move again until the dwell time has passed. -/
def hysteresis (dwellS : Double := .fin 300) : Selector Hysteresis where
  reset _ := .ok {}
  call ctx := do
    Effect.update (Hysteresis.next dwellS ctx)
    let s ← Effect.read id
    return everyClass ctx s.current
  lastDegraded _ := false

/-- The agent, and a choice on latency inside what it permits. -/
def governed {rt : Runtime} (authorityKey siteKey : rt.PrivateKey) (bundle : PolicyBundle)
    (siteId : String) (undeclared : Undeclared) : Selector (Governed rt) where
  reset _ := Governed.reset authorityKey siteKey bundle siteId
  call := Governed.call undeclared
  lastDegraded g := g.lastDegraded

/-- The selectors that are compared. -/
inductive Shipped : (σ : Type) → Selector σ → Prop
  | greedy : Shipped Unit greedy
  | staticPriority (order : List String) : Shipped Unit (staticPriority order)
  | hysteresis (dwellS : Double) : Shipped Hysteresis (hysteresis dwellS)
  | governed {rt : Runtime} (authorityKey siteKey : rt.PrivateKey) (bundle : PolicyBundle)
      (siteId : String) (undeclared : Undeclared) :
      Shipped (Governed rt) (governed authorityKey siteKey bundle siteId undeclared)

/-! ## When nothing is up -/

section Silence
variable {ctx : SelectorContext}

theorem bestByRtt_of_silence (h : ∀ linkId, observedUp ctx.evidence linkId = false)
    (candidates : List String) : bestByRtt ctx.evidence candidates = none :=
  bestByRtt_eq_none.mpr fun linkId _ => h linkId

theorem choose_of_silence (h : ∀ linkId, observedUp ctx.evidence linkId = false)
    (decision : EligibilityDecision) (classId : String) :
    choose ctx.evidence decision classId = none := by
  unfold choose
  dsimp only
  split
  · exact bestByRtt_of_silence h _
  · exact bestByRtt_of_silence h _

/-- A shipped selector that returns chooses nothing for any class where no link is observed up. -/
theorem call_of_silence {σ : Type} {selector : Selector σ} (hshipped : Shipped σ selector)
    (h : ∀ linkId, observedUp ctx.evidence linkId = false) {s s' : σ} {choices : Choices}
    (hcall : selector.call ctx s = (.ok choices, s')) : choices = everyClass ctx none := by
  cases hshipped with
  | greedy =>
    cases hcall
    rw [bestOfAll, bestByRtt_of_silence h]
  | staticPriority order =>
    cases hcall
    rw [List.find?_eq_none.mpr]
    intro linkId _
    rw [h linkId]
    decide
  | hysteresis dwellS =>
    cases hcall
    have hlive : s.current.any (observedUp ctx.evidence) = false := by
      cases s.current with
      | none => rfl
      | some linkId => exact h linkId
    show everyClass ctx (Hysteresis.next dwellS ctx s).current = _
    rw [Hysteresis.next, if_pos (.inr hlive), bestOfAll, bestByRtt_of_silence h]
  | governed authorityKey siteKey bundle siteId undeclared =>
    obtain ⟨decision, g, -, hreturn⟩ := Effect.bind_eq_ok_iff.mp hcall
    cases hreturn
    unfold everyClass
    refine List.map_congr_left ?_
    intro c _
    rw [choose_of_silence h]

end Silence

end Pilotfish
