import Pilotfish.Damping
import Pilotfish.Frames
import Pilotfish.Oracle
import Pilotfish.Overage

/-!
# What the shipped selectors come to

The selectors that are compared choose by what was observed in the step itself. None of them ever
sends over a link that is down, and the damped one without a dwell time is the greedy one.

Results:
1. `after_identities`: a run leaves the ids and the types of its links.
2. `run_never_down`: in every run of a shipped selector every choice is a link that is up.
3. `run_undamped`: a run of the hysteresis selector with no dwell time is that of the greedy one.
-/

namespace Pilotfish
open Python

/-! ## Links that keep their ids -/

/-- What names a model: its id, and the type of link it is a model of. -/
def LinkModel.identity (m : LinkModel) : String × Option String := (m.linkId, m.type?)

theorem unseen_identity : Unseen LinkModel.identity where
  up _ _ := rfl
  sensorFailed _ _ := rfl
  visibility v m := by
    obtain ⟨_, _, _, _, kind⟩ := m
    cases kind <;> rfl
  obstructed b m := by
    obtain ⟨_, _, _, _, kind⟩ := m
    cases kind <;> rfl

def LinkFleet.identities (fleet : LinkFleet) : Dict String (String × Option String) :=
  fleet.models.map LinkModel.identity

theorem identities_idle (fleet : LinkFleet) : fleet.idle.identities = fleet.identities := by
  refine Dict.ext_items ?_
  show ((fleet.models.items.map _).map _) = _
  rw [List.map_map]
  rfl

/-- Every model is under its own id. -/
def LinkFleet.Keyed (fleet : LinkFleet) : Prop :=
  ∀ key m, fleet.models.get? key = some m → m.linkId = key

theorem keyed_of_identities {fleet fleet' : LinkFleet} (h : fleet'.identities = fleet.identities)
    (hkeyed : fleet.Keyed) : fleet'.Keyed := by
  intro key m hm
  have hget : fleet'.identities.get? key = some m.identity := by
    rw [LinkFleet.identities, Dict.get?_map, hm]
    rfl
  rw [h, LinkFleet.identities, Dict.get?_map] at hget
  obtain ⟨m', hm', hsame⟩ := Option.map_eq_some_iff.mp hget
  rw [← hkeyed key m' hm']
  exact congrArg Prod.fst hsame.symm

section Runs
variable {rd : ℚ → Double} {ρ σ : Type} {generator : Random ρ} {scenario : Scenario}
  {selector : Selector σ} {step : Nat} {seed : Int} {state : σ}

theorem look_identities {world world' : World ρ} {ctx : SelectorContext}
    (h : world.look rd generator scenario step = .ok (ctx, world')) :
    world'.scene.fleet.identities = world.scene.fleet.identities :=
  happenAll_map unseen_identity (look_ok h).1

theorem after_identities {n : Nat} {loop : Loop ρ σ}
    (h : Loop.after rd generator scenario selector (.start generator scenario seed state) n =
      .ok loop) : loop.world.scene.fleet.identities = scenario.fleet.identities := by
  induction n generalizing loop with
  | zero =>
    cases h
    rfl
  | succ n ih =>
    obtain ⟨before, hbefore, hstep⟩ := bind_eq_ok_iff.mp h
    obtain ⟨ctx, world, choices, state', found, fleet, result, hlook, -, -, hcarry, rfl⟩ :=
      step_eq_ok hstep
    show fleet.identities = _
    rw [← identities_idle, carryAll_idle hcarry, identities_idle, look_identities hlook,
      ih hbefore]

/-! ## Links that are down -/

/-- A link that is observed up is up. -/
theorem isUp_of_observed {fleet : LinkFleet} (hkeyed : fleet.Keyed) {t : DateTime} {rng rng' : ρ}
    {evidence : EvidenceSnapshot}
    (h : fleet.step rd generator t rng = .ok (evidence.observations, rng')) {linkId : String}
    (hup : observedUp evidence linkId = true) :
    ∃ m, fleet.models.get? linkId = some m ∧ m.isUp = true := by
  unfold observedUp at hup
  cases hlatest : evidence.latest linkId "up" with
  | none =>
    rw [hlatest] at hup
    cases hup
  | some o =>
    rw [hlatest] at hup
    obtain ⟨ho, hid, hquantity⟩ :=
      EvidenceSnapshot.mem_candidates.mp (EvidenceSnapshot.latest_mem hlatest)
    obtain ⟨key, m, hm, hreports⟩ := fleet_reports h ho
    have hkey : key = linkId := by rw [← hkeyed key m hm, ← hreports.linkId, hid]
    exact ⟨m, hkey ▸ hm, (hreports.up hquantity).mp (of_decide_eq_true hup)⟩

/-- What a shipped selector chooses it has observed up. -/
theorem chosen_observed (hshipped : Shipped σ selector) {ctx : SelectorContext} {s s' : σ}
    {choices : Choices} (hcall : selector.call ctx s = (.ok choices, s')) {classId linkId : String}
    (hchoice : (classId, some linkId) ∈ choices) : observedUp ctx.evidence linkId = true := by
  cases hshipped with
  | greedy =>
    cases hcall
    obtain ⟨c, -, hc⟩ := List.mem_map.mp hchoice
    exact (bestByRtt_mem (Prod.mk.inj hc).2).2
  | staticPriority order =>
    cases hcall
    obtain ⟨c, -, hc⟩ := List.mem_map.mp hchoice
    exact List.find?_some (Prod.mk.inj hc).2
  | hysteresis dwellS =>
    cases hcall
    obtain ⟨c, -, hc⟩ := List.mem_map.mp hchoice
    have hheld : (Hysteresis.next dwellS ctx s).current = some linkId := (Prod.mk.inj hc).2
    rcases Hysteresis.next_cases dwellS ctx s with ⟨hkept, hlive⟩ | ⟨hset, -⟩
    · rw [hkept] at hheld
      rwa [hheld] at hlive
    · rw [hset] at hheld
      exact (bestByRtt_mem hheld).2
  | governed authorityKey siteKey bundle siteId undeclared =>
    obtain ⟨d, g, -, h⟩ := Effect.bind_eq_ok_iff.mp hcall
    cases h
    obtain ⟨c, -, hc⟩ := List.mem_map.mp hchoice
    have hchosen : choose ctx.evidence d c.1 = some linkId := (Prod.mk.inj hc).2
    unfold choose at hchosen
    dsimp only at hchosen
    split at hchosen
    · exact (bestByRtt_mem hchosen).2
    · exact (bestByRtt_mem hchosen).2

/-- Every choice on record is a link that was up. -/
def AllUp (result : RunResult) : Prop :=
  ∀ frame ∈ result.frames, ∀ classId linkId, (classId, some linkId) ∈ frame.choices →
    frame.up.lookup linkId = some true

theorem step_allUp (hshipped : Shipped σ selector) {loop loop' : Loop ρ σ}
    (hkeyed : loop.world.scene.fleet.Keyed) (hloop : AllUp loop.result)
    (h : loop.step rd generator scenario selector step = .ok loop') : AllUp loop'.result := by
  obtain ⟨ctx, world, choices, state', found, fleet, result, hlook, hcall, -, hcarry, rfl⟩ :=
    step_eq_ok h
  obtain ⟨hup, hresult⟩ := carryAll_tallies hcarry
  have hframes : result.frames = loop.result.frames := by rw [hresult]
  have hkeyed' := keyed_of_identities (look_identities hlook) hkeyed
  intro frame hframe classId linkId hchoice
  dsimp only at hframe
  rw [hframes] at hframe
  rcases List.mem_append.mp hframe with hearlier | hlast
  · exact hloop frame hearlier classId linkId hchoice
  · obtain rfl := List.mem_singleton.mp hlast
    obtain ⟨m, hm, hisUp⟩ := isUp_of_observed hkeyed' (look_ok hlook).2.1
      (chosen_observed hshipped hcall hchoice)
    show fleet.upStates.lookup linkId = _
    rw [hup, LinkFleet.upStates, Dict.lookup_map]
    exact (congrArg (Option.map _) hm).trans (congrArg some hisUp)

theorem after_allUp (hshipped : Shipped σ selector) (hkeyed : scenario.fleet.Keyed) {n : Nat}
    {loop : Loop ρ σ}
    (h : Loop.after rd generator scenario selector (.start generator scenario seed state) n =
      .ok loop) : AllUp loop.result := by
  induction n generalizing loop with
  | zero =>
    cases h
    intro frame hframe
    cases hframe
  | succ n ih =>
    obtain ⟨before, hbefore, hstep⟩ := bind_eq_ok_iff.mp h
    exact step_allUp hshipped (keyed_of_identities (after_identities hbefore) hkeyed)
      (ih hbefore) hstep

theorem down_of_allUp {result : RunResult} (h : AllUp result) :
    (result.frames.map (·.down)).sum = 0 := by
  refine List.sum_eq_zero ?_
  intro n hn
  obtain ⟨frame, hframe, rfl⟩ := List.mem_map.mp hn
  refine List.countP_eq_zero.mpr ?_
  rintro ⟨classId, linkId⟩ hchoice hdown
  cases linkId with
  | none => cases hdown
  | some linkId =>
    have hup := h frame hframe classId linkId hchoice
    simp [hup] at hdown

/-- No shipped selector ever sends over a link that is down, so all that a run leaves unserved it
counts as refused. -/
theorem run_never_down (hshipped : Shipped σ selector) (hkeyed : scenario.fleet.Keyed) {s : σ}
    {result : RunResult} (h : run rd generator scenario selector s seed = .ok result) :
    AllUp result ∧ result.downtimeS = 0 ∧ result.unservedS = result.refusedS := by
  obtain ⟨state, steps, loop, -, -, hloop, rfl⟩ := after_of_run h
  have hup := after_allUp hshipped hkeyed hloop
  have hdowntime : loop.result.downtimeS = 0 := by
    rw [(after_framed hloop).downtime, down_of_allUp hup, Nat.cast_zero, zero_mul]
  refine ⟨hup, hdowntime, ?_⟩
  rw [RunResult.unservedS, hdowntime, zero_add]

end Runs

/-! ## No dwell time -/

/-- The loop without what its selector remembers. -/
def Loop.erase {ρ σ : Type} (loop : Loop ρ σ) : Loop ρ Unit :=
  { world := loop.world
    selector := ()
    previous := loop.previous
    result := loop.result }

section Undamped
variable {rd : ℚ → Double} {ρ : Type} {generator : Random ρ} {scenario : Scenario} {step : Nat}

/-- What is held is held since no later than a step. -/
def HeldBy (scenario : Scenario) (step : Nat) (s : Hysteresis) : Prop :=
  ∀ since, s.since = some since → since.us ≤ T0.us + scenario.atS step * 1000000

theorem look_now {world world' : World ρ} {ctx : SelectorContext}
    (h : world.look rd generator scenario step = .ok (ctx, world')) :
    ctx.now.us = T0.us + scenario.atS step * 1000000 := by
  obtain ⟨us, hus, h⟩ := bind_eq_ok_iff.mp h
  obtain ⟨now, hnow, h⟩ := bind_eq_ok_iff.mp h
  obtain ⟨scene, -, h⟩ := bind_eq_ok_iff.mp h
  obtain ⟨⟨observations, rng⟩, -, h⟩ := bind_eq_ok_iff.mp h
  cases h
  have hseconds : us = scenario.atS step * 1000000 := by
    unfold timedeltaSeconds at hus
    dsimp only at hus
    split_ifs at hus
    exact (Except.ok.inj hus).symm
  rw [← hseconds]
  exact DateTime.ofUs_eq_ok.mp hnow

theorem dwell_over {dwellS : Double} (hdwell : dwellS.le (.fin 0) = true) {s : Hysteresis}
    {now : DateTime} (hheld : ∀ since, s.since = some since → since.us ≤ now.us) :
    dwellS.le (s.elapsed now) = true := by
  unfold Hysteresis.elapsed
  have hrank : ∀ {a : WithBot (WithTop ℚ)}, dwellS.rank = some a → a ≤ 0 := by
    intro a ha
    rw [Double.le_of_rank ha (rfl : (Double.fin 0).rank = some 0)] at hdwell
    exact of_decide_eq_true hdwell
  obtain ⟨a, ha⟩ := Double.rank_of_ne_nan (x := dwellS) (by rintro rfl; cases hdwell)
  cases hsince : s.since with
  | none =>
    rw [Double.le_of_rank ha (rfl : Double.inf.rank = some ⊤)]
    exact decide_eq_true le_top
  | some since =>
    have hnonneg : (0 : ℚ) ≤ now.totalSeconds since := by
      have hzero : now.totalSeconds now = ((0 : Int) : ℚ) :=
        DateTime.totalSeconds_of_whole (by simp)
      rw [Int.cast_zero] at hzero
      rw [← hzero]
      exact DateTime.totalSeconds_antitone (hheld since hsince)
    dsimp only
    rw [Double.le_of_rank ha rfl]
    refine decide_eq_true ((hrank ha).trans ?_)
    exact_mod_cast hnonneg

variable {dwellS : Double} (hdwell : dwellS.le (.fin 0) = true)
include hdwell

theorem next_undamped {s : Hysteresis} {ctx : SelectorContext}
    (hheld : ∀ since, s.since = some since → since.us ≤ ctx.now.us) :
    (Hysteresis.next dwellS ctx s).current = bestOfAll ctx := by
  unfold Hysteresis.next
  dsimp only
  split_ifs with hfree hlong
  · rfl
  · rfl
  · by_contra hother
    exact hlong ⟨fun hbest => hother hbest.symm, dwell_over hdwell hheld⟩

/-- A step chooses what the greedy selector does. -/
theorem step_erase {loop : Loop ρ Hysteresis} (hheld : HeldBy scenario step loop.selector) :
    (loop.step rd generator scenario (hysteresis dwellS) step).map Loop.erase =
      loop.erase.step rd generator scenario greedy step := by
  unfold Loop.step
  have hworld : loop.erase.world = loop.world := rfl
  rw [hworld]
  cases hlook : loop.world.look rd generator scenario step with
  | error e => rfl
  | ok seen =>
    obtain ⟨ctx, world⟩ := seen
    have hcurrent : (Hysteresis.next dwellS ctx loop.selector).current = bestOfAll ctx :=
      next_undamped hdwell (look_now hlook ▸ hheld)
    have hcall : ((hysteresis dwellS).call ctx loop.selector).1 =
        .ok (everyClass ctx (bestOfAll ctx)) := by
      rw [← hcurrent]
      rfl
    have hcall' : (greedy.call ctx loop.erase.selector).1 = .ok (everyClass ctx (bestOfAll ctx)) :=
      rfl
    simp only [bind, Except.bind, hcall, hcall']
    cases checkViolations rd (scenario.atS step) scenario.links scenario.classes world.scene.fleet
      (world.scene.fleet.trueRtt rd) (everyClass ctx (bestOfAll ctx)) with
    | error e => rfl
    | ok found =>
      dsimp only [Loop.erase]
      cases carryAll rd scenario (everyClass ctx (bestOfAll ctx)) world.scene.fleet
        { loop.result with violations := loop.result.violations ++ found } with
      | error e => rfl
      | ok carried => rfl

omit hdwell in
theorem atS_le_succ (hforward : 0 ≤ scenario.stepS) (step : Nat) :
    scenario.atS step ≤ scenario.atS (step + 1) := by
  rw [Scenario.atS, Scenario.atS, Nat.cast_succ, add_mul, one_mul]
  exact Int.le_add_of_nonneg_right hforward

omit hdwell in
/-- What is held after a step is held by the next. -/
theorem heldBy_step (hforward : 0 ≤ scenario.stepS) {loop loop' : Loop ρ Hysteresis}
    (hheld : HeldBy scenario step loop.selector)
    (h : loop.step rd generator scenario (hysteresis dwellS) step = .ok loop') :
    HeldBy scenario (step + 1) loop'.selector := by
  obtain ⟨ctx, world, choices, s', found, fleet, result, hlook, hcall, -, -, rfl⟩ := step_eq_ok h
  have hs' : s' = Hysteresis.next dwellS ctx loop.selector := (congrArg Prod.snd hcall).symm
  have hnext := atS_le_succ hforward step
  intro since hsince
  have hby : since.us ≤ T0.us + scenario.atS step * 1000000 := by
    rw [hs'] at hsince
    rcases Hysteresis.next_cases dwellS ctx loop.selector with ⟨hkept, -⟩ | ⟨hset, -⟩
    · rw [hkept] at hsince
      exact hheld since hsince
    · rw [hset] at hsince
      obtain rfl : ctx.now = since := Option.some.inj hsince
      exact (look_now hlook).le
  omega

theorem after_undamped (hforward : 0 ≤ scenario.stepS) (seed : Int) (n : Nat) :
    (Loop.after rd generator scenario (hysteresis dwellS) (.start generator scenario seed {}) n).map
        Loop.erase =
      Loop.after rd generator scenario greedy (.start generator scenario seed ()) n ∧
    ∀ loop, Loop.after rd generator scenario (hysteresis dwellS) (.start generator scenario seed {})
      n = .ok loop → HeldBy scenario n loop.selector := by
  induction n with
  | zero =>
    refine ⟨rfl, ?_⟩
    rintro loop h since hsince
    cases h
    cases hsince
  | succ n ih =>
    obtain ⟨herase, hheld⟩ := ih
    rw [Loop.after, Loop.after, ← herase]
    cases hafter : Loop.after rd generator scenario (hysteresis dwellS)
      (.start generator scenario seed {}) n with
    | error e =>
      refine ⟨rfl, ?_⟩
      intro loop h
      cases h
    | ok before =>
      refine ⟨step_erase hdwell (hheld before hafter), ?_⟩
      intro loop h
      exact heldBy_step hforward (hheld before hafter) h

/-- Without a dwell time the hysteresis selector is the greedy one, over every run. -/
theorem run_undamped (hforward : 0 ≤ scenario.stepS) (s : Hysteresis) (seed : Int) :
    run rd generator scenario (hysteresis dwellS) s seed =
      run rd generator scenario greedy () seed := by
  unfold run
  have hreset : (hysteresis dwellS).reset s = .ok {} := rfl
  have hreset' : greedy.reset () = .ok () := rfl
  rw [hreset, hreset']
  cases scenario.steps with
  | error e => rfl
  | ok steps =>
    show Loop.after _ _ _ _ _ _ >>= _ = Loop.after _ _ _ _ _ _ >>= _
    rw [← (after_undamped hdwell hforward seed steps.toNat).1]
    cases Loop.after rd generator scenario (hysteresis dwellS) (.start generator scenario seed {})
      steps.toNat with
    | error e => rfl
    | ok loop => rfl

end Undamped

theorem Sample.keyed_cutLater : Sample.cutLater.fleet.Keyed := by
  intro key m hm
  have hitems := Dict.get?_eq_some.mp hm
  rcases List.mem_pair.mp hitems with h | h <;> cases h <;> rfl

/-- Every choice of the static list is up when the fiber is cut. -/
theorem run_never_down_sample : ∃ result,
    run Double.nearest Sample.draws Sample.cutLater (staticPriority ["fiber0", "lte0"]) () 0 =
      .ok result ∧
    result.frames.map (·.choices) = [[("bulk", some "fiber0")], [("bulk", some "lte0")]] ∧
    AllUp result ∧ result.downtimeS = 0 ∧ result.unservedS = result.refusedS := by
  obtain ⟨result, hrun⟩ := isOk_iff.mp (show (run Double.nearest Sample.draws Sample.cutLater
    (staticPriority ["fiber0", "lte0"]) () 0).isOk = true by decide +kernel)
  have hchoices : (run Double.nearest Sample.draws Sample.cutLater
      (staticPriority ["fiber0", "lte0"]) () 0).toOption.all (fun result =>
        result.frames.map (·.choices) = [[("bulk", some "fiber0")], [("bulk", some "lte0")]]) =
      true := by decide +kernel
  rw [hrun] at hchoices
  exact ⟨result, hrun, of_decide_eq_true hchoices,
    run_never_down (.staticPriority _) Sample.keyed_cutLater hrun⟩

theorem run_undamped_sample :
    run Double.nearest Sample.draws Sample.cutLater (hysteresis (.fin 0)) {} 0 =
      run Double.nearest Sample.draws Sample.cutLater greedy () 0 :=
  run_undamped (by decide) (by decide) {} 0

end Pilotfish
