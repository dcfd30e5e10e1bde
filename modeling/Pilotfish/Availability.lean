import Pilotfish.Outcomes
import Mathlib.Algebra.Order.BigOperators.Group.List

/-!
# What the greedy selector is not beaten on

Governed selection is expected to lose on plain uptime. It does, and so does every other selector:
in each step the greedy one serves every class that any selector could serve by what was observed,
over a link that was measured no slower.

Results:
1. `shown_apart`: two runs are shown the same in each step, quotas apart.
2. `greedy_outdoes`: what the greedy selector does in a step, beside any other.
3. `unserved_le`, `greedy_unbeaten`: over a whole run it leaves the least unserved.
-/

namespace Pilotfish
open Python

/-! ## Sighted selectors -/

/-- A selector that gives every class nothing or a link that it has observed up. -/
structure Sighted {σ : Type} (selector : Selector σ) : Prop where
  classes : ∀ {ctx : SelectorContext} {s s' : σ} {choices : Choices},
    selector.call ctx s = (.ok choices, s') → choices.map Prod.fst = ctx.classes.map Prod.fst
  up : ∀ {ctx : SelectorContext} {s s' : σ} {choices : Choices},
    selector.call ctx s = (.ok choices, s') → ∀ {classId linkId : String},
      (classId, some linkId) ∈ choices → observedUp ctx.evidence linkId = true

theorem everyClass_fst (ctx : SelectorContext) (linkId : Option String) :
    (everyClass ctx linkId).map Prod.fst = ctx.classes.map Prod.fst := by
  rw [everyClass, List.map_map]
  rfl

theorem mem_everyClass {ctx : SelectorContext} {classId : String} {linkId linkId' : Option String} :
    (classId, linkId') ∈ everyClass ctx linkId ↔
    classId ∈ ctx.classes.map Prod.fst ∧ linkId' = linkId := by
  unfold everyClass
  constructor
  · intro h
    obtain ⟨c, hc, hpair⟩ := List.mem_map.mp h
    cases hpair
    exact ⟨List.mem_map_of_mem hc, rfl⟩
  · rintro ⟨hclass, rfl⟩
    obtain ⟨c, hc, rfl⟩ := List.mem_map.mp hclass
    exact List.mem_map.mpr ⟨c, hc, rfl⟩

/-- The selectors that are compared are sighted. -/
theorem sighted_of_shipped {σ : Type} {selector : Selector σ} (h : Shipped σ selector) :
    Sighted selector := by
  refine ⟨?_, fun hcall _ _ hchoice => chosen_observed h hcall hchoice⟩
  intro ctx s s' choices hcall
  cases h with
  | greedy =>
    cases hcall
    exact everyClass_fst _ _
  | staticPriority order =>
    cases hcall
    exact everyClass_fst _ _
  | hysteresis dwellS =>
    cases hcall
    exact everyClass_fst _ _
  | governed authorityKey siteKey bundle siteId undeclared =>
    obtain ⟨d, g, -, hchoices⟩ := Effect.bind_eq_ok_iff.mp hcall
    cases hchoices
    rw [List.map_map]
    rfl

/-! ## The same sight -/

section Sight
variable {ctx ctx' : SelectorContext}

/-- Anything but a quota reads the same. -/
theorem latest_of_apart (h : QuotasApart ctx ctx') (linkId : String) {quantity : String}
    (hquantity : quantity ≠ "quota_used_pct") :
    ctx.evidence.latest linkId quantity = ctx'.evidence.latest linkId quantity := by
  have hread (evidence : EvidenceSnapshot) : evidence.candidates linkId quantity =
      (unmetered evidence.observations).filter fun o => o.linkId = linkId ∧ o.quantity = quantity := by
    rw [EvidenceSnapshot.candidates, unmetered, List.filter_filter]
    refine List.filter_congr ?_
    intro o _
    by_cases ho : o.quantity = quantity
    · simp [ho, hquantity]
    · simp [ho]
  rw [EvidenceSnapshot.latest, EvidenceSnapshot.latest, hread, hread, h.observations]

theorem observedUp_of_apart (h : QuotasApart ctx ctx') (linkId : String) :
    observedUp ctx.evidence linkId = observedUp ctx'.evidence linkId := by
  rw [observedUp, observedUp, latest_of_apart h linkId (by decide)]

variable {rd : ℚ → Double} {ρ : Type} {generator : Random ρ} {scenario : Scenario} {σ σ' : Type}
  {selector : Selector σ} {selector' : Selector σ'} {state : σ} {state' : σ'} {seed : Int}
  {step : Nat}

/-- What two runs are shown in a step differs in the quotas only. -/
theorem shown_apart {world world' : World ρ}
    (h : shown rd generator scenario selector state seed step = .ok (ctx, world))
    (h' : shown rd generator scenario selector' state' seed step = .ok (ctx', world')) :
    QuotasApart ctx ctx' := by
  obtain ⟨before, idle, hbefore, hlook, hapart⟩ := shown_reference h
  obtain ⟨before', idle', hbefore', hlook', hapart'⟩ := shown_reference h'
  obtain rfl : before = before' := Except.ok.inj (hbefore.symm.trans hbefore')
  obtain ⟨rfl, -⟩ : idle = idle' ∧ world.idle = world'.idle :=
    Prod.mk.inj (Except.ok.inj (hlook.symm.trans hlook'))
  exact hapart.trans hapart'.symm

/-- What is chosen in a step, it is chosen among the links of the policy. -/
theorem chosen_listed {atS : Int} {links : Dict String Link} {classes : Dict String TrafficClass}
    {fleet : LinkFleet} {trueRtt : List (String × Double)} {choices : Choices}
    {found : List Violation}
    (h : checkViolations rd atS links classes fleet trueRtt choices = .ok found)
    {classId linkId : String} (hchoice : (classId, some linkId) ∈ choices) :
    ∃ link, links.get? linkId = some link := by
  induction choices generalizing found with
  | nil => cases hchoice
  | cons choice choices ih =>
    obtain ⟨classId', linkId'⟩ := choice
    cases linkId' with
    | none =>
      rcases List.mem_cons.mp hchoice with hfirst | hrest
      · cases hfirst
      · exact ih h hrest
    | some linkId' =>
      obtain ⟨first, hfirst, h⟩ := bind_eq_ok_iff.mp h
      obtain ⟨more, hmore, -⟩ := bind_eq_ok_iff.mp h
      rcases List.mem_cons.mp hchoice with hsame | hrest
      · cases hsame
        obtain ⟨link, -, -, -, hlink, -⟩ := checkChoice_ok.mp hfirst
        exact ⟨link, hlink⟩
      · exact ih hmore hrest

/-- A step of a run, with the frame it left. -/
theorem after_frame {n : Nat} {loop : Loop ρ σ}
    (h : Loop.after rd generator scenario selector (.start generator scenario seed state) n =
      .ok loop) {k : Nat} (hk : k < n) : ∃ ctx world s s' frame found,
      shown rd generator scenario selector state seed k = .ok (ctx, world) ∧
      selector.call ctx s = (.ok frame.choices, s') ∧
      checkViolations rd (scenario.atS k) scenario.links scenario.classes world.scene.fleet
        (world.scene.fleet.trueRtt rd) frame.choices = .ok found ∧
      loop.result.frames[k]? = some frame := by
  induction n generalizing loop with
  | zero => exact absurd hk (Nat.not_lt_zero k)
  | succ n ih =>
    obtain ⟨before, hbefore, hstep⟩ := bind_eq_ok_iff.mp h
    have hlength : before.result.frames.length = n := by
      simpa using congrArg List.length (after_framed hbefore).times
    obtain ⟨ctx, world, choices, s', found, fleet, result, hlook, hcall, hfound, hcarry, rfl⟩ :=
      step_eq_ok hstep
    have hframes : result.frames = before.result.frames := by rw [(carryAll_tallies hcarry).2]
    dsimp only
    rw [hframes]
    rcases Nat.lt_succ_iff_lt_or_eq.mp hk with hlt | rfl
    · rw [List.getElem?_append_left (hlength ▸ hlt)]
      exact ih hbefore hlt
    · refine ⟨ctx, world, before.selector, s',
        ⟨scenario.atS k, choices, fleet.upStates, world.scene.authorityReachable⟩, found,
        bind_eq_ok_iff.mpr ⟨before, hbefore, hlook⟩, hcall, hfound, ?_⟩
      rw [← hlength]
      exact List.getElem?_concat_length

end Sight

/-! ## The best of all -/

/-- A frame serves what another does, over links that were measured no slower. -/
def Outdoes (evidence : EvidenceSnapshot) (frame frame' : Frame) : Prop :=
  ∀ classId linkId, (classId, some linkId) ∈ frame'.choices →
    ∃ best, (classId, some best) ∈ frame.choices ∧
      observedRtt evidence best ≤ observedRtt evidence linkId

section Unbeaten
variable {rd : ℚ → Double} {ρ : Type} {generator : Random ρ} {scenario : Scenario} {σ : Type}
  {selector : Selector σ} {state : σ} {seed : Int} {n k : Nat}

/-- The greedy selector outdoes a sighted one that is shown the same. -/
theorem bestOfAll_outdoes {ctx ctx' : SelectorContext} (hapart : QuotasApart ctx ctx')
    {frame frame' : Frame} (hframe : frame.choices = everyClass ctx (bestOfAll ctx))
    (hclasses : frame'.choices.map Prod.fst = ctx'.classes.map Prod.fst)
    (hup : ∀ {classId linkId : String}, (classId, some linkId) ∈ frame'.choices →
      observedUp ctx'.evidence linkId = true ∧ linkId ∈ ctx.links.map Prod.fst) :
    Outdoes ctx.evidence frame frame' := by
  intro classId linkId hchoice
  obtain ⟨hlive, hlisted⟩ := hup hchoice
  rw [← observedUp_of_apart hapart] at hlive
  have hclass : classId ∈ ctx.classes.map Prod.fst := by
    rw [hapart.classes, ← hclasses]
    exact List.mem_map_of_mem hchoice
  cases hbest : bestOfAll ctx with
  | none =>
    have hdown := bestByRtt_eq_none.mp hbest linkId ((List.mem_insertionSort _).mpr hlisted)
    rw [hlive] at hdown
    cases hdown
  | some best =>
    refine ⟨best, ?_, ((lowestLatency_of_bestOfAll hbest).2.2 linkId hlisted hlive).1⟩
    rw [hframe, hbest]
    exact mem_everyClass.mpr ⟨hclass, rfl⟩

/-- What gives every class the same refuses all of them or none. -/
theorem refused_le {evidence : EvidenceSnapshot} {ctx : SelectorContext} {linkId : Option String}
    {frame frame' : Frame} (hframe : frame.choices = everyClass ctx linkId)
    (hclasses : frame'.choices.map Prod.fst = ctx.classes.map Prod.fst)
    (h : Outdoes evidence frame frame') : frame.refused ≤ frame'.refused := by
  have hlength : frame.choices.length = frame'.choices.length := by
    have hcount := congrArg List.length hclasses
    rw [List.length_map, List.length_map] at hcount
    rw [hframe, everyClass, List.length_map, hcount]
  cases linkId with
  | some linkId =>
    have hserved : frame.refused = 0 := by
      refine List.countP_eq_zero.mpr ?_
      rintro ⟨classId, given⟩ hchoice hnone
      rw [hframe] at hchoice
      obtain rfl := (mem_everyClass.mp hchoice).2
      cases hnone
    rw [hserved]
    exact Nat.zero_le _
  | none =>
    have hall : frame'.refused = frame'.choices.length := by
      refine List.countP_eq_length.mpr ?_
      rintro ⟨classId, given⟩ hchoice
      cases given with
      | none => rfl
      | some linkId =>
        obtain ⟨best, hbest, -⟩ := h classId linkId hchoice
        rw [hframe] at hbest
        cases (mem_everyClass.mp hbest).2
    rw [hall, ← hlength]
    exact List.countP_le_length

/-- Step by step the greedy selector outdoes a sighted one, and refuses no more. -/
theorem greedy_outdoes (hsighted : Sighted selector) {best : Loop ρ Unit} {loop : Loop ρ σ}
    (hbest : Loop.after rd generator scenario greedy (.start generator scenario seed ()) n = .ok best)
    (h : Loop.after rd generator scenario selector (.start generator scenario seed state) n = .ok loop)
    (hk : k < n) : ∃ ctx world frame frame',
      shown rd generator scenario greedy () seed k = .ok (ctx, world) ∧
      best.result.frames[k]? = some frame ∧ loop.result.frames[k]? = some frame' ∧
      Outdoes ctx.evidence frame frame' ∧ frame.refused ≤ frame'.refused := by
  obtain ⟨ctx, world, _, _, frame, _, hshown, hcall, -, hframe⟩ := after_frame hbest hk
  obtain ⟨ctx', world', s, s', frame', found, hshown', hcall', hfound, hframe'⟩ := after_frame h hk
  have hapart := shown_apart hshown hshown'
  have hchoices : frame.choices = everyClass ctx (bestOfAll ctx) :=
    (Except.ok.inj (congrArg Prod.fst hcall)).symm
  have hclasses := hsighted.classes hcall'
  have houtdoes : Outdoes ctx.evidence frame frame' := by
    refine bestOfAll_outdoes hapart hchoices hclasses ?_
    intro classId linkId hchoice
    refine ⟨hsighted.up hcall' hchoice, ?_⟩
    obtain ⟨link, hlink⟩ := chosen_listed hfound hchoice
    obtain ⟨before, -, hlook⟩ := bind_eq_ok_iff.mp hshown
    rw [(look_ok hlook).2.2.1]
    exact List.mem_map_of_mem (f := Prod.fst) (Dict.get?_eq_some.mp hlink)
  refine ⟨ctx, world, frame, frame', hshown, hframe, hframe', houtdoes, ?_⟩
  exact refused_le hchoices (by rw [hclasses, hapart.classes]) houtdoes

/-- The greedy selector leaves no more class-seconds unserved than a sighted one. -/
theorem unserved_le (hsighted : Sighted selector) (hkeyed : scenario.fleet.Keyed)
    (hforward : 0 ≤ scenario.stepS) {best : Loop ρ Unit} {loop : Loop ρ σ}
    (hbest : Loop.after rd generator scenario greedy (.start generator scenario seed ()) n = .ok best)
    (h : Loop.after rd generator scenario selector (.start generator scenario seed state) n =
      .ok loop) : best.result.unservedS ≤ loop.result.unservedS := by
  have hframed := after_framed hbest
  have hframed' := after_framed h
  have hrefused : (best.result.frames.map (·.refused)).sum ≤
      (loop.result.frames.map (·.refused)).sum := by
    have hcount {σ : Type} {loop : Loop ρ σ} (h : Framed scenario n loop) :
        loop.result.frames.length = n := by
      simpa using congrArg List.length h.times
    refine List.Forall₂.sum_le_sum (List.forall₂_iff_get.mpr ⟨?_, ?_⟩)
    · rw [List.length_map, List.length_map, hcount hframed, hcount hframed']
    · intro k hk hk'
      rw [List.length_map, hcount hframed] at hk
      obtain ⟨ctx, world, frame, frame', -, hframe, hframe', -, hle⟩ :=
        greedy_outdoes hsighted hbest h hk
      obtain ⟨_, rfl⟩ := List.getElem?_eq_some_iff.mp hframe
      obtain ⟨_, rfl⟩ := List.getElem?_eq_some_iff.mp hframe'
      simpa using hle
  have hdown := down_of_allUp (after_allUp .greedy hkeyed hbest)
  rw [RunResult.unservedS, RunResult.unservedS, hframed.refused, hframed'.refused,
    hframed.downtime, hframed'.downtime, hdown, Nat.cast_zero, zero_mul, zero_add]
  have hscaled := mul_le_mul_of_nonneg_right (Int.ofNat_le.mpr hrefused) hforward
  have hserved := mul_nonneg (Int.natCast_nonneg (loop.result.frames.map (·.down)).sum) hforward
  omega

/-- The greedy selector leaves unserved no more than any sighted selector does in the same scenario
with the same seed, and in no step is it outdone. -/
theorem greedy_unbeaten (hsighted : Sighted selector) (hkeyed : scenario.fleet.Keyed)
    (hforward : 0 ≤ scenario.stepS) {s : σ} {best result : RunResult}
    (hbest : run rd generator scenario greedy () seed = .ok best)
    (h : run rd generator scenario selector s seed = .ok result) :
    best.unservedS ≤ result.unservedS ∧ ∀ k < result.steps, ∃ ctx world frame frame',
      shown rd generator scenario greedy () seed k = .ok (ctx, world) ∧
      best.frames[k]? = some frame ∧ result.frames[k]? = some frame' ∧
      Outdoes ctx.evidence frame frame' := by
  obtain ⟨⟨⟩, steps, bestLoop, -, hsteps, hbestLoop, rfl⟩ := after_of_run hbest
  obtain ⟨state, steps', loop, -, hsteps', hloop, rfl⟩ := after_of_run h
  obtain rfl : steps = steps' := Except.ok.inj (hsteps.symm.trans hsteps')
  refine ⟨unserved_le hsighted hkeyed hforward hbestLoop hloop, ?_⟩
  intro k hk
  rw [(after_framed hloop).steps] at hk
  obtain ⟨ctx, world, frame, frame', hshown, hframe, hframe', houtdoes, -⟩ :=
    greedy_outdoes hsighted hbestLoop hloop hk
  exact ⟨ctx, world, frame, frame', hshown, hframe, hframe', houtdoes⟩

end Unbeaten

/-- The fiber is cut: a list of nothing else leaves the class unserved, and the greedy selector moves
it. -/
theorem greedy_unbeaten_sample : ∃ best result,
    run Double.nearest Sample.draws Sample.cutLater greedy () 0 = .ok best ∧
    run Double.nearest Sample.draws Sample.cutLater (staticPriority ["fiber0"]) () 0 = .ok result ∧
    result.unservedS = 30 ∧ best.unservedS ≤ result.unservedS := by
  obtain ⟨best, hbest⟩ := isOk_iff.mp (show (run Double.nearest Sample.draws Sample.cutLater
    greedy () 0).isOk = true by decide +kernel)
  obtain ⟨result, hrun⟩ := isOk_iff.mp (show (run Double.nearest Sample.draws Sample.cutLater
    (staticPriority ["fiber0"]) () 0).isOk = true by decide +kernel)
  have hunserved : (run Double.nearest Sample.draws Sample.cutLater (staticPriority ["fiber0"]) ()
      0).toOption.all (fun result => result.unservedS = 30) = true := by decide +kernel
  rw [hrun] at hunserved
  exact ⟨best, result, hbest, hrun, of_decide_eq_true hunserved,
    (greedy_unbeaten (sighted_of_shipped (.staticPriority _)) Sample.keyed_cutLater (by decide)
      hbest hrun).1⟩

end Pilotfish
