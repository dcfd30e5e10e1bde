import Pilotfish.Simulation

/-!
# Refusals and outages

The loop keeps two measures that must never be one number: what was carried over no link because
none was up, and what was refused although one was. A selector that finds nothing up chooses no
link, and choosing no link is what is counted as a refusal.

Results:
1. `step_silent`: in a step with no link up all classes are counted as refused, and none as down.
2. `told_apart_iff`: the two are told apart if and only if there are no classes to count, or some
   link is up in every step.
-/

namespace Pilotfish
open Python

/-- Some link of a fleet is up. -/
def LinkFleet.SomeUp (fleet : LinkFleet) : Prop := ∃ item ∈ fleet.models.items, item.2.isUp = true

instance (fleet : LinkFleet) : Decidable fleet.SomeUp :=
  inferInstanceAs (Decidable (∃ item ∈ fleet.models.items, item.2.isUp = true))

/-- A step that counts a refusal has a link that is up, and one that has none counts all its classes
as down. -/
structure ToldApart {ρ σ : Type} (scenario : Scenario) (before after : Loop ρ σ) : Prop where
  refused : after.result.refusedS ≠ before.result.refusedS → after.world.scene.fleet.SomeUp
  downtime : ¬after.world.scene.fleet.SomeUp → after.result.downtimeS =
    before.result.downtimeS + scenario.classes.items.length * scenario.stepS

theorem someUp_idle {fleet : LinkFleet} : fleet.idle.SomeUp ↔ fleet.SomeUp := by
  unfold LinkFleet.SomeUp LinkFleet.idle
  dsimp only
  rw [Dict.items_map]
  simp

section Steps
variable {rd : ℚ → Double} {ρ σ : Type} {generator : Random ρ} {scenario : Scenario}
  {selector : Selector σ} {step : Nat} {loop loop' : Loop ρ σ}

/-- Where no link is up none is observed up, whatever sensors failed. -/
theorem silence_of_down {fleet : LinkFleet} {t : DateTime} {rng rng' : ρ}
    {evidence : EvidenceSnapshot}
    (h : fleet.step rd generator t rng = .ok (evidence.observations, rng')) (hdown : ¬fleet.SomeUp)
    (linkId : String) : observedUp evidence linkId = false := by
  unfold observedUp
  cases hlatest : evidence.latest linkId "up" with
  | none => rfl
  | some o =>
    obtain ⟨ho, -, hquantity⟩ :=
      EvidenceSnapshot.mem_candidates.mp (EvidenceSnapshot.latest_mem hlatest)
    obtain ⟨key, m, hm, hreports⟩ := fleet_reports h ho
    have hmodel : m.isUp ≠ true := fun hup => hdown ⟨(key, m), Dict.get?_eq_some.mp hm, hup⟩
    exact decide_eq_false fun hvalue => hmodel ((hreports.up hquantity).mp hvalue)

theorem carryAll_none {fleet : LinkFleet} {result : RunResult} {ctx : SelectorContext} :
    carryAll rd scenario (everyClass ctx none) fleet result = .ok (fleet, { result with
      refusedS := result.refusedS + ctx.classes.length * scenario.stepS }) := by
  unfold everyClass
  induction ctx.classes generalizing result with
  | nil => simp [carryAll]
  | cons c classes ih =>
    have hone : carryOne rd scenario fleet result (c.1, none) =
      .ok (fleet, { result with refusedS := result.refusedS + scenario.stepS }) := rfl
    rw [List.map_cons, carryAll, hone]
    refine ih.trans ?_
    have hsum : result.refusedS + scenario.stepS + classes.length * scenario.stepS =
        result.refusedS + (c :: classes).length * scenario.stepS := by
      rw [List.length_cons, Nat.cast_succ]
      ring
    rw [hsum]

theorem step_silent (hshipped : Shipped σ selector)
    (h : loop.step rd generator scenario selector step = .ok loop')
    (hdown : ¬loop'.world.scene.fleet.SomeUp) :
    loop'.result.refusedS =
      loop.result.refusedS + scenario.classes.items.length * scenario.stepS ∧
    loop'.result.downtimeS = loop.result.downtimeS := by
  obtain ⟨ctx, world, choices, state, found, fleet, result, hlook, hcall, -, hcarry, hworld,
    hrefused, hdowntime, -, -⟩ := step_ok h
  obtain ⟨-, hreported, -, hclasses⟩ := look_ok hlook
  have hfleet : ¬world.scene.fleet.SomeUp := by
    rw [← someUp_idle, ← carryAll_idle hcarry, someUp_idle]
    rw [hworld] at hdown
    exact hdown
  have hnone := call_of_silence hshipped (silence_of_down hreported hfleet) hcall
  rw [hnone, carryAll_none] at hcarry
  cases hcarry
  rw [hrefused, hdowntime, hclasses]
  exact ⟨rfl, rfl⟩

/-- One step tells them apart if it has nothing to count or some link is up. -/
theorem step_told_apart_iff (hshipped : Shipped σ selector) (hstep : scenario.stepS ≠ 0)
    (h : loop.step rd generator scenario selector step = .ok loop') :
    ToldApart scenario loop loop' ↔
    scenario.classes.items = [] ∨ loop'.world.scene.fleet.SomeUp := by
  by_cases hup : loop'.world.scene.fleet.SomeUp
  · simp only [hup, or_true, iff_true]
    exact ⟨fun _ => hup, fun hdown => absurd hup hdown⟩
  · obtain ⟨hrefused, hdowntime⟩ := step_silent hshipped h hup
    simp only [hup, or_false]
    constructor
    · intro hapart
      by_contra hclasses
      refine hup (hapart.refused ?_)
      have hcount : (scenario.classes.items.length : Int) ≠ 0 := by
        rw [Nat.cast_ne_zero]
        exact fun hlength => hclasses (List.length_eq_zero_iff.mp hlength)
      have := mul_ne_zero hcount hstep
      omega
    · intro hclasses
      rw [hclasses] at hrefused
      refine ⟨fun hne => absurd ?_ hne, fun _ => ?_⟩
      · simpa using hrefused
      · rw [hdowntime, hclasses]
        simp

theorem someUp_of_loop {seed : Int} {state : σ} {n : Nat}
    (h : Loop.after rd generator scenario selector (.start generator scenario seed state) n =
      .ok loop) :
    (∃ scene, scenario.sceneAt n = .ok scene ∧ scene.fleet.SomeUp) ↔
    loop.world.scene.fleet.SomeUp := by
  rw [scene_of_loop h]
  simp only [Except.ok.injEq, exists_eq_left']
  exact someUp_idle

end Steps

theorem told_apart_iff {rd : ℚ → Double} {ρ σ : Type} {generator : Random ρ} {scenario : Scenario}
    {selector : Selector σ} (hshipped : Shipped σ selector) (hstep : scenario.stepS ≠ 0)
    {seed : Int} {state : σ} {n : Nat} {loop : Loop ρ σ}
    (h : Loop.after rd generator scenario selector (.start generator scenario seed state) n =
      .ok loop) :
    (∀ k < n, ∀ before after, Loop.after rd generator scenario selector
        (.start generator scenario seed state) k = .ok before →
      before.step rd generator scenario selector k = .ok after →
      ToldApart scenario before after) ↔
    scenario.classes.items = [] ∨
      ∀ k < n, ∃ scene, scenario.sceneAt (k + 1) = .ok scene ∧ scene.fleet.SomeUp := by
  constructor
  · intro hapart
    by_cases hclasses : scenario.classes.items = []
    · exact .inl hclasses
    refine .inr ?_
    intro k hk
    obtain ⟨before, after, hbefore, hafter, hreached⟩ := after_step h hk
    have := (step_told_apart_iff hshipped hstep hafter).mp (hapart k hk before after hbefore hafter)
    exact (someUp_of_loop hreached).mpr (this.resolve_left hclasses)
  · intro hup k hk before after hbefore hafter
    refine (step_told_apart_iff hshipped hstep hafter).mpr (hup.imp_right ?_)
    intro hscenes
    have hreached : Loop.after rd generator scenario selector
        (.start generator scenario seed state) (k + 1) = .ok after :=
      bind_eq_ok_iff.mpr ⟨before, hbefore, hafter⟩
    exact (someUp_of_loop hreached).mp (hscenes k hk)

namespace Sample

/-- The fiber is down. -/
def fiberCut : Scenario := scenario [⟨0, .linkDown, "fiber0"⟩]

/-- Both links are down. -/
def dark : Scenario := scenario [⟨0, .linkDown, "fiber0"⟩, ⟨0, .linkDown, "lte0"⟩]

end Sample

/-- With the metered link up nothing is refused. -/
theorem told_apart_iff_sample : ∃ loop,
    Loop.after Double.nearest Sample.draws Sample.fiberCut greedy
      (.start Sample.draws Sample.fiberCut 0 ()) 2 = .ok loop ∧
    ∀ k < 2, ∀ before after, Loop.after Double.nearest Sample.draws Sample.fiberCut greedy
        (.start Sample.draws Sample.fiberCut 0 ()) k = .ok before →
      before.step Double.nearest Sample.draws Sample.fiberCut greedy k = .ok after →
      ToldApart Sample.fiberCut before after := by
  obtain ⟨loop, hloop⟩ := isOk_iff.mp (show (Loop.after Double.nearest Sample.draws
    Sample.fiberCut greedy (.start Sample.draws Sample.fiberCut 0 ()) 2).isOk = true by decide +kernel)
  refine ⟨loop, hloop, (told_apart_iff .greedy (by decide) hloop).mpr (.inr ?_)⟩
  intro k hk
  interval_cases k
  · exact ⟨_, rfl, by decide +kernel⟩
  · exact ⟨_, rfl, by decide +kernel⟩

/-- In a step with no link up what is lost is counted as refused. -/
theorem outage_is_refused : ∃ after,
    (Loop.start Sample.draws Sample.dark 0 ()).step Double.nearest Sample.draws Sample.dark greedy
      0 = .ok after ∧
    after.result.refusedS = 30 ∧ after.result.downtimeS = 0 ∧ ¬after.world.scene.fleet.SomeUp ∧
    ¬ToldApart Sample.dark (Loop.start Sample.draws Sample.dark 0 ()) after := by
  obtain ⟨after, hafter⟩ := isOk_iff.mp (show ((Loop.start Sample.draws Sample.dark 0 ()).step
    Double.nearest Sample.draws Sample.dark greedy 0).isOk = true by decide +kernel)
  have hcounts : ((Loop.start Sample.draws Sample.dark 0 ()).step Double.nearest Sample.draws
      Sample.dark greedy 0).toOption.all (fun after => after.result.refusedS = 30 ∧
        after.result.downtimeS = 0 ∧ ¬after.world.scene.fleet.SomeUp) = true := by
    decide +kernel
  rw [hafter] at hcounts
  obtain ⟨hrefused, hdowntime, hdown⟩ := of_decide_eq_true hcounts
  refine ⟨after, hafter, hrefused, hdowntime, hdown, ?_⟩
  intro hapart
  refine hdown (hapart.refused ?_)
  rw [hrefused]
  decide

end Pilotfish
