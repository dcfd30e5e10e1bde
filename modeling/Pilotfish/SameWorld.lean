import Pilotfish.Simulation

/-!
# Two selectors face the same world

One random stream feeds all models of a fleet, and what a selector chooses decides what its links
carry. No draw depends on that, so two runs that differ in their selectors only differ in nothing
but the quotas they report.

Results:
1. `same_world`: in no step do two runs see a different world.
-/

namespace Pilotfish
open Python

/-- Which links are up. -/
def LinkFleet.upStates (fleet : LinkFleet) : List (String × Bool) :=
  fleet.models.items.map fun item => (item.1, item.2.isUp)

/-- The same measurements but for quotas, the same links up, the same true latencies, and the same
reachability of the authority. -/
structure SameSight (rd : ℚ → Double) {ρ : Type} (seen seen' : SelectorContext × World ρ) :
    Prop where
  apart : QuotasApart seen.1 seen'.1
  upStates : seen.2.scene.fleet.upStates = seen'.2.scene.fleet.upStates
  isUp : ∀ linkId, seen.2.scene.fleet.isUp linkId = seen'.2.scene.fleet.isUp linkId
  trueRtt : seen.2.scene.fleet.trueRtt rd = seen'.2.scene.fleet.trueRtt rd
  authorityReachable : seen.2.scene.authorityReachable = seen'.2.scene.authorityReachable
  rng : seen.2.rng = seen'.2.rng

section Apart
variable {ctx ctx₁ ctx₂ : SelectorContext}

theorem QuotasApart.symm (h : QuotasApart ctx ctx₁) : QuotasApart ctx₁ ctx :=
  ⟨h.now.symm, h.observations.symm, h.links.symm, h.classes.symm, h.authorityReachable.symm⟩

theorem QuotasApart.trans (h : QuotasApart ctx ctx₁) (h' : QuotasApart ctx₁ ctx₂) :
    QuotasApart ctx ctx₂ :=
  ⟨h.now.trans h'.now, h.observations.trans h'.observations, h.links.trans h'.links,
    h.classes.trans h'.classes, h.authorityReachable.trans h'.authorityReachable⟩

end Apart

section Fleets
variable {rd : ℚ → Double} {fleet fleet' : LinkFleet}

theorem upStates_idle (fleet : LinkFleet) : fleet.idle.upStates = fleet.upStates := by
  unfold LinkFleet.upStates LinkFleet.idle
  dsimp only
  rw [Dict.items_map, List.map_map]
  rfl

theorem trueRtt_idle (fleet : LinkFleet) : fleet.idle.trueRtt rd = fleet.trueRtt rd := by
  unfold LinkFleet.trueRtt LinkFleet.idle
  dsimp only
  rw [Dict.items_map, List.filterMap_map]
  rfl

theorem isUp_eq_ok {linkId : String} {up : Bool} (h : fleet.isUp linkId = .ok up) :
    fleet.upStates.lookup linkId = some up := by
  obtain ⟨model, hmodel, rfl⟩ := map_eq_ok_iff.mp h
  rw [LinkFleet.upStates, Dict.lookup_map]
  exact congrArg (Option.map _) (getKey_eq_ok.mp hmodel)

end Fleets

section Runs
variable {rd : ℚ → Double} {ρ σ : Type} {generator : Random ρ} {scenario : Scenario}
  {selector : Selector σ} {state : σ} {seed : Int} {step : Nat}

/-- What a step shows is what it would have shown had nothing been carried, quotas apart. -/
theorem shown_reference {ctx : SelectorContext} {world : World ρ}
    (h : shown rd generator scenario selector state seed step = .ok (ctx, world)) :
    ∃ before ctx', scenario.worldAt rd generator seed step = .ok before ∧
      before.look rd generator scenario step = .ok (ctx', world.idle) ∧ QuotasApart ctx ctx' := by
  obtain ⟨loop, hloop, hlook⟩ := bind_eq_ok_iff.mp h
  obtain ⟨ctx', hlook', hapart⟩ := look_idle hlook
  exact ⟨loop.world.idle, ctx', world_of_loop hloop, hlook', hapart⟩

end Runs

theorem same_world {rd : ℚ → Double} {ρ : Type} {generator : Random ρ} {scenario : Scenario}
    {σ₁ σ₂ : Type} {selector₁ : Selector σ₁} {selector₂ : Selector σ₂} {state₁ : σ₁} {state₂ : σ₂}
    {seed : Int} {step : Nat} {seen₁ seen₂ : SelectorContext × World ρ}
    (h₁ : shown rd generator scenario selector₁ state₁ seed step = .ok seen₁)
    (h₂ : shown rd generator scenario selector₂ state₂ seed step = .ok seen₂) :
    SameSight rd seen₁ seen₂ := by
  obtain ⟨ctx₁, world₁⟩ := seen₁
  obtain ⟨ctx₂, world₂⟩ := seen₂
  obtain ⟨before, ctx, hbefore, hlook, hapart₁⟩ := shown_reference h₁
  obtain ⟨before', ctx', hbefore', hlook', hapart₂⟩ := shown_reference h₂
  -- both are what the one world shows in which nothing is carried
  obtain rfl : before = before' := Except.ok.inj (hbefore.symm.trans hbefore')
  obtain ⟨rfl, hidle⟩ : ctx = ctx' ∧ world₁.idle = world₂.idle :=
    Prod.mk.inj (Except.ok.inj (hlook.symm.trans hlook'))
  have hfleet : world₁.scene.fleet.idle = world₂.scene.fleet.idle :=
    congrArg (·.scene.fleet) hidle
  have hrng : world₁.rng = world₂.rng := congrArg (·.rng) hidle
  refine ⟨hapart₁.trans hapart₂.symm, ?_, ?_, ?_, congrArg (·.scene.authorityReachable) hidle, hrng⟩
  · rw [← upStates_idle, hfleet, upStates_idle]
  · intro linkId
    rw [← isUp_idle_fleet, hfleet, isUp_idle_fleet]
  · rw [← trueRtt_idle, hfleet, trueRtt_idle]

/-- A run that carries over the fiber and one that carries over the metered link. -/
theorem same_world_sample : ∃ seen₁ seen₂,
    shown Double.nearest Sample.draws (Sample.scenario []) greedy () 0 1 = .ok seen₁ ∧
    shown Double.nearest Sample.draws (Sample.scenario []) (staticPriority ["lte0"]) () 0 1 =
      .ok seen₂ ∧ SameSight Double.nearest seen₁ seen₂ := by
  obtain ⟨seen₁, h₁⟩ := isOk_iff.mp (show (shown Double.nearest Sample.draws
    (Sample.scenario []) greedy () 0 1).isOk = true by decide +kernel)
  obtain ⟨seen₂, h₂⟩ := isOk_iff.mp (show (shown Double.nearest Sample.draws
    (Sample.scenario []) (staticPriority ["lte0"]) () 0 1).isOk = true by decide +kernel)
  exact ⟨seen₁, seen₂, h₁, h₂, same_world h₁ h₂⟩

end Pilotfish
