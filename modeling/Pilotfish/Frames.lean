import Pilotfish.SameWorld

/-!
# What a run puts on record

Every step of the loop appends a frame: the choices, and which links were up. The measures a report
reads are kept beside the frames, and can be taken from them again.

Results:
1. `step_eq_ok`: all a step does to the loop.
2. `run_recorded`: the steps, the refusals, the outages and the flaps of a run are those of its
   frames, and the frames are the steps in their order.
3. `timelineAt_run`: the frame of a second is the one of the step it falls in.
4. `linkUpAt_run`: which link was up at a second is the same whatever selector ran, from any seed.
-/

namespace Pilotfish
open Python

/-! ## Reading a timeline -/

/-- `xs[i]`, which counts from the end below nought. -/
def listGet {α : Type} (xs : List α) (i : Int) : Except Exc α :=
  let place := if i < 0 then i + xs.length else i
  if place < 0 then .error ⟨.IndexError, "list index out of range"⟩
  else (xs[place.toNat]?).elim (.error ⟨.IndexError, "list index out of range"⟩) .ok

namespace RunResult

/-- The frame of a second. The length of a step is the scenario's. -/
def timelineAt (result : RunResult) (stepS second : Int) : Except Exc Frame :=
  if stepS = 0 then .error ⟨.ZeroDivisionError, "integer division or modulo by zero"⟩
  else listGet result.frames (min (second.fdiv stepS) (result.frames.length - 1))

def linkUpAt (result : RunResult) (stepS second : Int) (linkId : String) : Except Exc Bool := do
  let frame ← result.timelineAt stepS second
  (frame.up.lookup linkId).elim (.error ⟨.KeyError, "'" ++ linkId ++ "'"⟩) .ok

end RunResult

/-- The step a second falls in, or the last of them. -/
theorem step_of_second {d t : Int} {n : Nat} (hd : 0 < d) (ht : 0 ≤ t) (hn : 0 < n) :
    ∃ k < n, min (t.fdiv d) (n - 1) = (k : Int) ∧ k * d ≤ t ∧ (t < k * d + d ∨ k + 1 = n) := by
  obtain ⟨q, hq⟩ := Int.eq_ofNat_of_zero_le (Int.ediv_nonneg ht hd.le)
  have hle := Int.ediv_mul_le t hd.ne'
  have hlt := Int.lt_ediv_add_one_mul_self t hd
  rw [hq] at hle hlt
  rw [Int.fdiv_eq_ediv_of_nonneg _ hd.le, hq]
  rcases Nat.lt_or_ge q n with hin | hpast
  · refine ⟨q, hin, min_eq_left (by omega), hle, .inl ?_⟩
    linarith
  · refine ⟨n - 1, by omega, ?_, ?_, .inr (by omega)⟩
    · rw [min_eq_right (by omega)]
      omega
    · refine le_trans (mul_le_mul_of_nonneg_right ?_ hd.le) hle
      exact_mod_cast (by omega : n - 1 ≤ q)

theorem listGet_natCast {α : Type} {xs : List α} {k : Nat} {x : α} (h : xs[k]? = some x) :
    listGet xs k = .ok x := by
  unfold listGet
  have hk : ¬(k : Int) < 0 := not_lt.mpr (Int.natCast_nonneg k)
  simp only [hk, if_false, Int.toNat_natCast, h]
  rfl

/-! ## Tallies -/

namespace Frame

/-- How many classes were given no link. -/
def refused (frame : Frame) : Nat := frame.choices.countP fun choice => choice.2.isNone

/-- How many classes were given a link that was down. -/
def down (frame : Frame) : Nat :=
  frame.choices.countP fun choice => choice.2.any fun linkId => frame.up.lookup linkId = some false

end Frame

/-- The sum of what is measured of every frame, beside what was chosen before it. -/
def tallyIn (measure : Choices → Frame → Nat) : Choices → List Frame → Nat
  | _, [] => 0
  | previous, frame :: frames => measure previous frame + tallyIn measure frame.choices frames

theorem tallyIn_concat (measure : Choices → Frame → Nat) (previous : Choices) (frames : List Frame)
    (frame : Frame) : tallyIn measure previous (frames ++ [frame]) = tallyIn measure previous frames +
      measure ((frames.getLast?.map (·.choices)).getD previous) frame := by
  induction frames generalizing previous with
  | nil => simp [tallyIn]
  | cons first frames ih =>
    rw [List.cons_append, tallyIn, tallyIn, ih, add_assoc]
    cases frames with
    | nil => rfl
    | cons second frames => rfl

/-- How often a class was given another link than in the frame before. -/
def flapsIn : Choices → List Frame → Nat :=
  tallyIn fun previous frame => flapsOf previous frame.choices

section Steps
variable {rd : ℚ → Double} {ρ σ : Type} {generator : Random ρ} {scenario : Scenario}
  {selector : Selector σ} {step : Nat}

/-- All a step does. -/
theorem step_eq_ok {loop loop' : Loop ρ σ}
    (h : loop.step rd generator scenario selector step = .ok loop') :
    ∃ ctx world choices state found fleet result,
      loop.world.look rd generator scenario step = .ok (ctx, world) ∧
      selector.call ctx loop.selector = (.ok choices, state) ∧
      checkViolations rd (scenario.atS step) scenario.links scenario.classes world.scene.fleet
        (world.scene.fleet.trueRtt rd) choices = .ok found ∧
      carryAll rd scenario choices world.scene.fleet
        { loop.result with violations := loop.result.violations ++ found } =
          .ok (fleet, result) ∧
      loop' = {
        world := ⟨world.rng, { world.scene with fleet := fleet }⟩
        selector := state
        previous := choices
        result := { result with
          flaps := result.flaps + flapsOf loop.previous choices
          degradedS := result.degradedS + if selector.lastDegraded state then scenario.stepS else 0
          frames := result.frames ++ [⟨scenario.atS step, choices, fleet.upStates,
            world.scene.authorityReachable⟩]
          steps := result.steps + 1 } } := by
  obtain ⟨⟨ctx, world⟩, hlook, h⟩ := bind_eq_ok_iff.mp h
  obtain ⟨choices, hcalled, h⟩ := bind_eq_ok_iff.mp h
  obtain ⟨found, hfound, h⟩ := bind_eq_ok_iff.mp h
  obtain ⟨⟨fleet, result⟩, hcarry, h⟩ := bind_eq_ok_iff.mp h
  cases h
  exact ⟨ctx, world, choices, (selector.call ctx loop.selector).2, found, fleet, result, hlook,
    Prod.ext hcalled rfl, hfound, hcarry, rfl⟩

/-- What carrying a choice adds to the tallies. -/
theorem carryOne_tallies {fleet fleet' : LinkFleet} {result result' : RunResult}
    {choice : String × Option String}
    (h : carryOne rd scenario fleet result choice = .ok (fleet', result')) :
    fleet'.upStates = fleet.upStates ∧ result' = { result with
      refusedS := result.refusedS + if choice.2.isNone then scenario.stepS else 0
      downtimeS := result.downtimeS +
        if choice.2.any fun linkId => fleet.upStates.lookup linkId = some false then scenario.stepS
        else 0
      cost := result'.cost } := by
  have hup : fleet'.upStates = fleet.upStates := by
    rw [← upStates_idle, carryOne_idle h, upStates_idle]
  refine ⟨hup, ?_⟩
  obtain ⟨classId, linkId⟩ := choice
  cases linkId with
  | none =>
    cases h
    simp
  | some linkId =>
    obtain ⟨up, hisUp, h⟩ := bind_eq_ok_iff.mp h
    have hlookup := isUp_eq_ok hisUp
    cases up with
    | false =>
      cases h
      simp [hlookup]
    | true =>
      obtain ⟨model, -, h⟩ := bind_eq_ok_iff.mp h
      obtain ⟨spent, -, h⟩ := bind_eq_ok_iff.mp h
      cases spent with
      | false =>
        cases h
        simp [hlookup]
      | true =>
        obtain ⟨gb, -, h⟩ := bind_eq_ok_iff.mp h
        cases h
        simp [hlookup]

theorem carryAll_tallies {fleet fleet' : LinkFleet} {result result' : RunResult} {choices : Choices}
    (h : carryAll rd scenario choices fleet result = .ok (fleet', result')) :
    fleet'.upStates = fleet.upStates ∧ result' = { result with
      refusedS := result.refusedS +
        (choices.countP fun choice => choice.2.isNone : Nat) * scenario.stepS
      downtimeS := result.downtimeS + (choices.countP fun choice =>
        choice.2.any fun linkId => fleet.upStates.lookup linkId = some false : Nat) * scenario.stepS
      cost := result'.cost } := by
  induction choices generalizing fleet result with
  | nil =>
    cases h
    simp
  | cons choice choices ih =>
    obtain ⟨⟨fleet₁, result₁⟩, hone, h⟩ := bind_eq_ok_iff.mp h
    obtain ⟨hup, hresult⟩ := carryOne_tallies hone
    obtain ⟨hup', hresult'⟩ := ih h
    refine ⟨hup'.trans hup, ?_⟩
    rw [hup, hresult] at hresult'
    rw [hresult', List.countP_cons, List.countP_cons]
    congr 1
    · push_cast
      split_ifs <;> ring
    · push_cast
      split_ifs <;> ring

/-! ## Runs -/

/-- The measures that are kept beside the frames are those of the frames. -/
structure Framed (scenario : Scenario) (n : Nat) (loop : Loop ρ σ) : Prop where
  steps : loop.result.steps = n
  times : loop.result.frames.map (·.atS) = (List.range n).map scenario.atS
  previous : loop.previous = (loop.result.frames.getLast?.map (·.choices)).getD []
  refused : loop.result.refusedS = (loop.result.frames.map (·.refused)).sum * scenario.stepS
  downtime : loop.result.downtimeS = (loop.result.frames.map (·.down)).sum * scenario.stepS
  flaps : loop.result.flaps = flapsIn [] loop.result.frames

theorem step_framed {loop loop' : Loop ρ σ} (hloop : Framed scenario step loop)
    (h : loop.step rd generator scenario selector step = .ok loop') :
    Framed scenario (step + 1) loop' := by
  obtain ⟨ctx, world, choices, state, found, fleet, result, -, -, -, hcarry, rfl⟩ := step_eq_ok h
  obtain ⟨hup, hresult⟩ := carryAll_tallies hcarry
  rw [hresult]
  refine ⟨?_, ?_, ?_, ?_, ?_, ?_⟩
  · exact congrArg (· + 1) hloop.steps
  · rw [List.map_append, hloop.times, List.range_succ, List.map_append]
    rfl
  · simp
  · dsimp only
    rw [hloop.refused, List.map_append, List.sum_append]
    push_cast
    simp [Frame.refused]
    ring
  · dsimp only
    rw [hloop.downtime, List.map_append, List.sum_append]
    push_cast
    simp [Frame.down, hup]
    ring
  · dsimp only
    rw [flapsIn, tallyIn_concat, ← flapsIn, ← hloop.flaps, hloop.previous]

theorem after_framed {seed : Int} {state : σ} {n : Nat} {loop : Loop ρ σ}
    (h : Loop.after rd generator scenario selector (.start generator scenario seed state) n =
      .ok loop) : Framed scenario n loop := by
  induction n generalizing loop with
  | zero =>
    cases h
    exact ⟨rfl, rfl, rfl, by simp [Loop.start], by simp [Loop.start], rfl⟩
  | succ n ih =>
    obtain ⟨before, hbefore, hstep⟩ := bind_eq_ok_iff.mp h
    exact step_framed (ih hbefore) hstep

/-- Frame by frame, the links that were up are those the events left up, and the authority was in
reach if they left it so. -/
theorem after_scene {seed : Int} {state : σ} {n : Nat} {loop : Loop ρ σ}
    (h : Loop.after rd generator scenario selector (.start generator scenario seed state) n =
      .ok loop) {k : Nat} {frame : Frame} (hframe : loop.result.frames[k]? = some frame) :
    ∃ scene, scenario.sceneAt (k + 1) = .ok scene ∧ frame.up = scene.fleet.upStates ∧
      frame.authorityReachable = scene.authorityReachable := by
  induction n generalizing loop with
  | zero =>
    cases h
    simp [Loop.start] at hframe
  | succ n ih =>
    have hscene := scene_of_loop h
    obtain ⟨before, hbefore, hstep⟩ := bind_eq_ok_iff.mp h
    have hlength : before.result.frames.length = n := by
      simpa using congrArg List.length (after_framed hbefore).times
    obtain ⟨ctx, world, choices, state', found, fleet, result, -, -, -, hcarry, rfl⟩ :=
      step_eq_ok hstep
    have hframes : result.frames = before.result.frames := by rw [(carryAll_tallies hcarry).2]
    dsimp only at hframe
    rw [hframes, List.getElem?_append, hlength] at hframe
    split_ifs at hframe with hk
    · exact ih hbefore hframe
    · obtain ⟨hplace, rfl⟩ := List.getElem?_eq_some_iff.mp hframe
      rw [List.length_singleton, Nat.lt_one_iff] at hplace
      obtain rfl : k = n := by omega
      exact ⟨_, hscene, by simp [Scene.idle, upStates_idle], by simp [Scene.idle]⟩

/-! ## Results -/

variable {s : σ} {seed : Int} {result : RunResult}

theorem after_of_run (h : run rd generator scenario selector s seed = .ok result) :
    ∃ state steps loop, selector.reset s = .ok state ∧ scenario.steps = .ok steps ∧
      Loop.after rd generator scenario selector (.start generator scenario seed state)
        steps.toNat = .ok loop ∧ loop.result = result := by
  obtain ⟨state, hstate, h⟩ := bind_eq_ok_iff.mp h
  obtain ⟨steps, hsteps, h⟩ := bind_eq_ok_iff.mp h
  obtain ⟨loop, hloop, h⟩ := bind_eq_ok_iff.mp h
  exact ⟨state, steps, loop, hstate, hsteps, hloop, Except.ok.inj h⟩

/-- The frames of a run are its steps in their order, and what it counted of refusals, outages and
flaps can be counted from them. -/
theorem run_recorded (h : run rd generator scenario selector s seed = .ok result) :
    ∃ steps, scenario.steps = .ok steps ∧ result.steps = steps.toNat ∧
      result.frames.map (·.atS) = (List.range steps.toNat).map scenario.atS ∧
      result.refusedS = (result.frames.map (·.refused)).sum * scenario.stepS ∧
      result.downtimeS = (result.frames.map (·.down)).sum * scenario.stepS ∧
      result.flaps = flapsIn [] result.frames := by
  obtain ⟨state, steps, loop, -, hsteps, hloop, rfl⟩ := after_of_run h
  obtain ⟨hcount, htimes, -, hrefused, hdowntime, hflaps⟩ := after_framed hloop
  exact ⟨steps, hsteps, hcount, htimes, hrefused, hdowntime, hflaps⟩

/-- A second of a run is in a step, or after the last. -/
theorem timelineAt_run (h : run rd generator scenario selector s seed = .ok result)
    (hstep : 0 < scenario.stepS) {second : Int} (hsecond : 0 ≤ second) (hsome : 0 < result.steps) :
    ∃ k < result.steps, ∃ frame, result.timelineAt scenario.stepS second = .ok frame ∧
      result.frames[k]? = some frame ∧ frame.atS = k * scenario.stepS ∧ frame.atS ≤ second ∧
      (second < frame.atS + scenario.stepS ∨ k + 1 = result.steps) := by
  obtain ⟨state, steps, loop, -, -, hloop, rfl⟩ := after_of_run h
  obtain ⟨hcount, htimes, -, -, -, -⟩ := after_framed hloop
  have hlength : loop.result.frames.length = loop.result.steps := by
    rw [hcount]
    simpa using congrArg List.length htimes
  obtain ⟨k, hk, hplace, hle, hlt⟩ := step_of_second hstep hsecond hsome
  have hframe := List.getElem?_eq_getElem (hlength ▸ hk : k < loop.result.frames.length)
  have htime : (loop.result.frames[k]).atS = k * scenario.stepS := by
    have hatS := congrArg (·[k]?) htimes
    rw [List.getElem?_map, hframe, List.getElem?_map, List.getElem?_range (hcount ▸ hk)] at hatS
    exact Option.some.inj hatS
  refine ⟨k, hk, _, ?_, hframe, htime, htime ▸ hle, ?_⟩
  · rw [← hlength] at hplace
    rw [RunResult.timelineAt, if_neg hstep.ne', hplace]
    exact listGet_natCast hframe
  · rw [htime]
    exact hlt

/-- Which link was up at a second of a run is what the events up to its step say, whatever selector
ran and whatever was drawn. -/
theorem linkUpAt_run (h : run rd generator scenario selector s seed = .ok result)
    (hstep : 0 < scenario.stepS) {second : Int} (hsecond : 0 ≤ second) (hsome : 0 < result.steps) :
    ∃ k < result.steps, k * scenario.stepS ≤ second ∧
      (second < k * scenario.stepS + scenario.stepS ∨ k + 1 = result.steps) ∧
      ∀ linkId, result.linkUpAt scenario.stepS second linkId = (do
        let scene ← scenario.sceneAt (k + 1)
        scene.fleet.isUp linkId) := by
  obtain ⟨k, hk, frame, htimeline, hframe, hatS, hle, hlt⟩ :=
    timelineAt_run h hstep hsecond hsome
  obtain ⟨state, steps, loop, -, -, hloop, rfl⟩ := after_of_run h
  obtain ⟨scene, hscene, hup, -⟩ := after_scene hloop hframe
  refine ⟨k, hk, hatS ▸ hle, hatS ▸ hlt, ?_⟩
  intro linkId
  rw [RunResult.linkUpAt, htimeline, hscene]
  show (frame.up.lookup linkId).elim _ _ = scene.fleet.isUp linkId
  rw [hup, LinkFleet.upStates, Dict.lookup_map, LinkFleet.isUp, getKey, Dict.get?]
  cases scene.fleet.models.items.lookup linkId <;> rfl

end Steps

namespace Sample

/-- The fiber link is cut half a minute into the run. -/
def cutLater : Scenario := scenario [⟨30, .linkDown, "fiber0"⟩]

end Sample

/-- The greedy selector leaves the link when it is cut, and its frames say so. -/
theorem run_recorded_sample : ∃ result steps,
    run Double.nearest Sample.draws Sample.cutLater greedy () 0 = .ok result ∧ result.flaps = 1 ∧
    Sample.cutLater.steps = .ok steps ∧ result.steps = steps.toNat ∧
      result.frames.map (·.atS) = (List.range steps.toNat).map Sample.cutLater.atS ∧
      result.refusedS = (result.frames.map (·.refused)).sum * Sample.cutLater.stepS ∧
      result.downtimeS = (result.frames.map (·.down)).sum * Sample.cutLater.stepS ∧
      result.flaps = flapsIn [] result.frames := by
  obtain ⟨result, hrun⟩ := isOk_iff.mp (show (run Double.nearest Sample.draws Sample.cutLater
    greedy () 0).isOk = true by decide +kernel)
  have hflaps : (run Double.nearest Sample.draws Sample.cutLater greedy () 0).toOption.all
      (fun result => result.flaps = 1) = true := by decide +kernel
  rw [hrun] at hflaps
  obtain ⟨steps, hrecorded⟩ := run_recorded hrun
  exact ⟨result, steps, hrun, of_decide_eq_true hflaps, hrecorded⟩

/-- The run of a greedy selector shows the cut. -/
theorem linkUpAt_run_sample : ∃ result,
    run Double.nearest Sample.draws Sample.cutLater greedy () 0 = .ok result ∧
    result.linkUpAt 30 29 "fiber0" = .ok true ∧ ∃ k < result.steps, k * 30 ≤ (45 : Int) ∧
      ((45 : Int) < k * 30 + 30 ∨ k + 1 = result.steps) ∧
      ∀ linkId, result.linkUpAt 30 45 linkId = (do
        let scene ← Sample.cutLater.sceneAt (k + 1)
        scene.fleet.isUp linkId) := by
  obtain ⟨result, hrun⟩ := isOk_iff.mp (show (run Double.nearest Sample.draws Sample.cutLater
    greedy () 0).isOk = true by decide +kernel)
  have hfacts : (run Double.nearest Sample.draws Sample.cutLater greedy () 0).toOption.all
      (fun result => result.linkUpAt 30 29 "fiber0" = .ok true ∧ 0 < result.steps) = true := by
    decide +kernel
  rw [hrun] at hfacts
  obtain ⟨hbefore, hsome⟩ := of_decide_eq_true hfacts
  exact ⟨result, hrun, hbefore, linkUpAt_run hrun (by decide) (by decide) hsome⟩

end Pilotfish
