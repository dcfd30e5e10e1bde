import Pilotfish.Baselines

/-!
# The event loop

Time advances in fixed steps. In each step the events that are due change the site, the fleet
reports, the selector chooses, and the choices are judged and carried out.

Results:
1. `world_of_loop`: but for the bytes its links carried, the world of a run is that of a site where
   nothing is carried.
2. `scene_of_loop`: what events do to a site is the same in every run.
-/

namespace Pilotfish
open Python

/-! ## Scenarios -/

/-- Noon of 28 August 2026. -/
def T0 : DateTime := ⟨1787918400000000, by decide, by decide⟩

inductive EventKind
  | linkDown | linkUp | fog | clear | obstruct | unobstruct | sensorFail | sensorRecover
  | authorityUnreachable | authorityReachable
deriving DecidableEq

/-- Something that happens to the site at a given second into the run. -/
structure Event where
  atS : Int
  kind : EventKind
  target : String := ""
deriving DecidableEq

/-- A site, its links, the traffic it carries, and what goes wrong. -/
structure Scenario where
  bundle : PolicyBundle
  fleet : LinkFleet
  trafficBytesPerS : Dict String Int := .empty
  events : List Event := []
  durationS : Int := 3600
  stepS : Int := 30

/-- `self.duration_s // self.step_s`. -/
def Scenario.steps (scenario : Scenario) : Except Exc Int :=
  if scenario.stepS = 0 then .error ⟨.ZeroDivisionError, "integer division or modulo by zero"⟩
  else .ok (scenario.durationS.fdiv scenario.stepS)

/-! ## Events -/

def fogVisibilityM : Double := .fin 80

def clearVisibilityM : Double := .fin 8000

namespace LinkModel

def setUp (up : Bool) (m : LinkModel) : LinkModel := { m with up := up }

def setSensorFailed (sensorFailed : Bool) (m : LinkModel) : LinkModel :=
  { m with sensorFailed := sensorFailed }

/-- Only an FSO model reads its visibility. -/
def setVisibility (visibilityM : Double) (m : LinkModel) : LinkModel :=
  match m.kind with
  | .fso _ baseRttMs usableVisibilityM =>
      { m with kind := .fso visibilityM baseRttMs usableVisibilityM }
  | _ => m

/-- Only a satellite model reads whether it is obstructed. -/
def setObstructed (obstructed : Bool) (m : LinkModel) : LinkModel :=
  match m.kind with
  | .satellite baseRttMs _ quotaGb costPerGbOver =>
      { m with kind := .satellite baseRttMs obstructed quotaGb costPerGbOver }
  | _ => m

end LinkModel

/-- Set an attribute of the model under a target, which has to be there. -/
def LinkFleet.assign (fleet : LinkFleet) (target field : String)
    (set : LinkModel → LinkModel) : Except Exc LinkFleet :=
  match fleet.models.get? target with
  | none => .error ⟨.AttributeError, "'NoneType' object has no attribute '" ++ field ++ "'"⟩
  | some _ => .ok ⟨fleet.models.modify target set⟩

/-- The fleet, and whether the authority can be reached. `applied` is a history: the step and the
place in the listing of every event that was applied, in order. -/
structure Scene where
  fleet : LinkFleet
  authorityReachable : Bool := true
  applied : List (Nat × Nat) := []

/-- Apply one event. -/
def applyEvent (fleet : LinkFleet) (event : Event) (authority : Bool) :
    Except Exc (LinkFleet × Bool) :=
  let assign (field : String) (set : LinkModel → LinkModel) : Except Exc (LinkFleet × Bool) :=
    (fleet.assign event.target field set).map (·, authority)
  match event.kind with
  | .linkDown => assign "up" (.setUp false)
  | .linkUp => assign "up" (.setUp true)
  | .fog => assign "visibility_m" (.setVisibility fogVisibilityM)
  | .clear => assign "visibility_m" (.setVisibility clearVisibilityM)
  | .obstruct => assign "obstructed" (.setObstructed true)
  | .unobstruct => assign "obstructed" (.setObstructed false)
  | .sensorFail => assign "sensor_failed" (.setSensorFailed true)
  | .sensorRecover => assign "sensor_failed" (.setSensorFailed false)
  | .authorityUnreachable => .ok (fleet, false)
  | .authorityReachable => .ok (fleet, true)

/-- The events of exactly this second, in the order of the listing. -/
def Scene.happenAll (step : Nat) (atS : Int) : List (Event × Nat) → Scene → Except Exc Scene
  | [], scene => .ok scene
  | (event, place) :: events, scene =>
      if event.atS = atS then do
        let (fleet, authority) ← applyEvent scene.fleet event scene.authorityReachable
        happenAll step atS events ⟨fleet, authority, scene.applied ++ [(step, place)]⟩
      else happenAll step atS events scene

/-- The second of a step. -/
def Scenario.atS (scenario : Scenario) (step : Nat) : Int := step * scenario.stepS

def Scenario.happen (scenario : Scenario) (step : Nat) (scene : Scene) : Except Exc Scene :=
  scene.happenAll step (scenario.atS step) scenario.events.zipIdx

/-! ## A step -/

/-- The scene with the random stream all models draw from. -/
structure World (ρ : Type) where
  rng : ρ
  scene : Scene

/-- The state of the loop between two steps. -/
structure Loop (ρ σ : Type) where
  world : World ρ
  selector : σ
  previous : Choices := []
  result : RunResult := {}

namespace Scenario
variable (scenario : Scenario)

/-- `{link.id: link for link in scenario.bundle.links}`. -/
def links : Dict String Link := .ofEntries (scenario.bundle.links.map fun link => (link.id, link))

def classes : Dict String TrafficClass :=
  .ofEntries (scenario.bundle.trafficClasses.map fun c => (c.id, c))

end Scenario

section Steps
variable (rd : ℚ → Double) {ρ σ : Type} (generator : Random ρ)

/-- True latency, known to the oracle but never to the selector. -/
def LinkModel.trueRtt (m : LinkModel) : Option Double :=
  match m.kind with
  | .base => none
  | .fiber baseRttMs => some baseRttMs
  | .lte _ baseRttMs _ _ => some baseRttMs
  | .satellite baseRttMs obstructed _ _ =>
      some (if obstructed then .add rd baseRttMs (.fin 400) else baseRttMs)
  | .fso _ baseRttMs _ => some baseRttMs

def LinkFleet.trueRtt (fleet : LinkFleet) : List (String × Double) :=
  fleet.models.items.filterMap fun item => (item.2.trueRtt rd).map (item.1, ·)

/-- What a step shows the selector, once its events have happened. -/
def World.look (scenario : Scenario) (step : Nat) (world : World ρ) :
    Except Exc (SelectorContext × World ρ) := do
  let now ← T0.add (← timedeltaSeconds (scenario.atS step))
  let scene ← scenario.happen step world.scene
  let (observations, rng) ← scene.fleet.step rd generator now world.rng
  let ctx : SelectorContext := {
    now := now
    evidence := ⟨observations⟩
    links := scenario.links.items
    classes := scenario.classes.items
    authorityReachable := scene.authorityReachable }
  return (ctx, ⟨rng, scene⟩)

/-- Carry the traffic of one class, or count why it is not carried. -/
def carryOne (scenario : Scenario) (fleet : LinkFleet) (result : RunResult) :
    String × Option String → Except Exc (LinkFleet × RunResult)
  -- nothing was allowed, as the loop counts it
  | (_, none) => .ok (fleet, { result with refusedS := result.refusedS + scenario.stepS })
  | (classId, some linkId) => do
      if ← fleet.isUp linkId then
        let carried := (scenario.trafficBytesPerS.get? classId).getD 0 * scenario.stepS
        let model ← getKey fleet.models linkId
        let spent ← model.spent rd
        let after : LinkFleet := ⟨fleet.models.modify linkId (.carry carried)⟩
        if spent then
          let gb ← trueDiv rd carried (10 ^ 9)
          return (after, { result with
            cost := .add rd result.cost (.mul rd gb model.costPerGb) })
        else return (after, result)
      else return (fleet, { result with downtimeS := result.downtimeS + scenario.stepS })

def carryAll (scenario : Scenario) :
    Choices → LinkFleet → RunResult → Except Exc (LinkFleet × RunResult)
  | [], fleet, result => .ok (fleet, result)
  | choice :: choices, fleet, result => do
      let (fleet, result) ← carryOne rd scenario fleet result choice
      carryAll scenario choices fleet result

/-- How many classes were moved. -/
def flapsOf (previous choices : Choices) : Nat :=
  choices.countP fun choice => (previous.lookup choice.1).any (· ≠ choice.2)

/-- One step of the loop. -/
def Loop.step (scenario : Scenario) (selector : Selector σ) (step : Nat) (loop : Loop ρ σ) :
    Except Exc (Loop ρ σ) := do
  let (ctx, world) ← loop.world.look rd generator scenario step
  let (called, state) := selector.call ctx loop.selector
  let choices ← called
  let fleet := world.scene.fleet
  let found ← checkViolations rd (scenario.atS step) scenario.links scenario.classes fleet
    (fleet.trueRtt rd) choices
  let (fleet, result) ← carryAll rd scenario choices fleet
    { loop.result with violations := loop.result.violations ++ found }
  let frame : Frame := {
    atS := scenario.atS step
    choices := choices
    up := fleet.models.items.map fun item => (item.1, item.2.isUp)
    authorityReachable := world.scene.authorityReachable }
  return {
    world := ⟨world.rng, { world.scene with fleet := fleet }⟩
    selector := state
    previous := choices
    result := { result with
      flaps := result.flaps + flapsOf loop.previous choices
      degradedS := result.degradedS + if selector.lastDegraded state then scenario.stepS else 0
      frames := result.frames ++ [frame]
      steps := result.steps + 1 } }

/-! ## Runs -/

def Loop.start (scenario : Scenario) (seed : Int) (state : σ) : Loop ρ σ where
  world := ⟨generator.seeded seed, ⟨scenario.fleet, true, []⟩⟩
  selector := state

/-- The loop after some steps. -/
def Loop.after (scenario : Scenario) (selector : Selector σ) (loop : Loop ρ σ) :
    Nat → Except Exc (Loop ρ σ)
  | 0 => .ok loop
  | step + 1 => do
      let before ← Loop.after scenario selector loop step
      before.step rd generator scenario selector step

def run (scenario : Scenario) (selector : Selector σ) (s : σ) (seed : Int := 0) :
    Except Exc RunResult := do
  let state ← selector.reset s
  let steps ← scenario.steps
  let loop ← Loop.after rd generator scenario selector (.start generator scenario seed state)
    steps.toNat
  return loop.result

/-- What a step of a run shows, and the world it shows it in. -/
def shown (scenario : Scenario) (selector : Selector σ) (state : σ) (seed : Int) (step : Nat) :
    Except Exc (SelectorContext × World ρ) := do
  let loop ← Loop.after rd generator scenario selector (.start generator scenario seed state) step
  loop.world.look rd generator scenario step

end Steps

/-! ## Where nothing is carried -/

def Scene.idle (scene : Scene) : Scene := { scene with fleet := scene.fleet.idle }

def World.idle {ρ : Type} (world : World ρ) : World ρ := { world with scene := world.scene.idle }

namespace Scenario
variable (scenario : Scenario)

/-- The site after the events of some steps. -/
def sceneAt : Nat → Except Exc Scene
  | 0 => .ok ⟨scenario.fleet.idle, true, []⟩
  | step + 1 => do
      let scene ← sceneAt step
      scenario.happen step scene

/-- The world after some steps in which the links only report. -/
def worldAt (rd : ℚ → Double) {ρ : Type} (generator : Random ρ) (seed : Int) :
    Nat → Except Exc (World ρ)
  | 0 => .ok ⟨generator.seeded seed, ⟨scenario.fleet.idle, true, []⟩⟩
  | step + 1 => do
      let world ← worldAt rd generator seed step
      let (_, after) ← world.look rd generator scenario step
      return after

end Scenario

section Events
variable {fleet : LinkFleet} {event : Event} {scene : Scene}

/-- A setting that does not look at what was carried is the same on an idle fleet. -/
theorem assign_idle {set : LinkModel → LinkModel} (h : ∀ m : LinkModel, (set m).idle = set m.idle)
    (target field : String) : fleet.idle.assign target field set =
      (fleet.assign target field set).map LinkFleet.idle := by
  unfold LinkFleet.assign LinkFleet.idle
  dsimp only
  rw [Dict.get?_map]
  cases fleet.models.get? target with
  | none => rfl
  | some m =>
    have hmodels := Dict.map_modify (g := LinkModel.idle) h fleet.models target
    exact congrArg (fun models => Except.ok (LinkFleet.mk models)) hmodels.symm

theorem applyEvent_idle (authority : Bool) : applyEvent fleet.idle event authority =
    (applyEvent fleet event authority).map fun r => (r.1.idle, r.2) := by
  have hassign {set : LinkModel → LinkModel} (h : ∀ m : LinkModel, (set m).idle = set m.idle)
      (field : String) : (fleet.idle.assign event.target field set).map (·, authority) =
        ((fleet.assign event.target field set).map (·, authority)).map
          fun r : LinkFleet × Bool => (r.1.idle, r.2) := by
    rw [assign_idle h]
    cases fleet.assign event.target field set <;> rfl
  have hvisibility (v : Double) (m : LinkModel) :
      (m.setVisibility v).idle = m.idle.setVisibility v := by
    obtain ⟨_, _, _, _, kind⟩ := m
    cases kind <;> rfl
  have hobstructed (b : Bool) (m : LinkModel) :
      (m.setObstructed b).idle = m.idle.setObstructed b := by
    obtain ⟨_, _, _, _, kind⟩ := m
    cases kind <;> rfl
  have hup (b : Bool) (m : LinkModel) : (m.setUp b).idle = m.idle.setUp b := rfl
  have hsensor (b : Bool) (m : LinkModel) :
      (m.setSensorFailed b).idle = m.idle.setSensorFailed b := rfl
  unfold applyEvent
  cases event.kind with
  | linkDown => exact hassign (hup _) _
  | linkUp => exact hassign (hup _) _
  | fog => exact hassign (hvisibility _) _
  | clear => exact hassign (hvisibility _) _
  | obstruct => exact hassign (hobstructed _) _
  | unobstruct => exact hassign (hobstructed _) _
  | sensorFail => exact hassign (hsensor _) _
  | sensorRecover => exact hassign (hsensor _) _
  | authorityUnreachable => rfl
  | authorityReachable => rfl

theorem happenAll_idle (step : Nat) (atS : Int) (events : List (Event × Nat)) (scene : Scene) :
    scene.idle.happenAll step atS events = (scene.happenAll step atS events).map Scene.idle := by
  induction events generalizing scene with
  | nil => rfl
  | cons entry events ih =>
    obtain ⟨event, place⟩ := entry
    unfold Scene.happenAll
    split_ifs
    · have hfleet : scene.idle.fleet = scene.fleet.idle := rfl
      have hauthority : scene.idle.authorityReachable = scene.authorityReachable := rfl
      rw [hfleet, hauthority, applyEvent_idle]
      cases applyEvent scene.fleet event scene.authorityReachable with
      | error e => rfl
      | ok r => exact ih ⟨r.1, r.2, scene.applied ++ [(step, place)]⟩
    · exact ih scene

theorem happen_idle (scenario : Scenario) (step : Nat) (scene : Scene) :
    scenario.happen step scene.idle = (scenario.happen step scene).map Scene.idle :=
  happenAll_idle step _ _ scene

end Events

/-! ## What a run does to the world -/

section World
variable {rd : ℚ → Double} {ρ σ : Type} {generator : Random ρ} {scenario : Scenario}
  {selector : Selector σ} {step : Nat}

/-- What one step of the loop consists of. -/
theorem step_ok {loop loop' : Loop ρ σ}
    (h : loop.step rd generator scenario selector step = .ok loop') :
    ∃ ctx world choices state found fleet result,
      loop.world.look rd generator scenario step = .ok (ctx, world) ∧
      selector.call ctx loop.selector = (.ok choices, state) ∧
      checkViolations rd (scenario.atS step) scenario.links scenario.classes world.scene.fleet
        (world.scene.fleet.trueRtt rd) choices = .ok found ∧
      carryAll rd scenario choices world.scene.fleet
        { loop.result with violations := loop.result.violations ++ found } =
          .ok (fleet, result) ∧
      loop'.world = ⟨world.rng, { world.scene with fleet := fleet }⟩ ∧
      loop'.result.refusedS = result.refusedS ∧ loop'.result.downtimeS = result.downtimeS ∧
      loop'.result.cost = result.cost ∧ loop'.result.frames = result.frames ++ [⟨scenario.atS step,
        choices, fleet.models.items.map fun item => (item.1, item.2.isUp),
        world.scene.authorityReachable⟩] := by
  obtain ⟨⟨ctx, world⟩, hlook, h⟩ := bind_eq_ok_iff.mp h
  obtain ⟨choices, hcalled, h⟩ := bind_eq_ok_iff.mp h
  obtain ⟨found, hfound, h⟩ := bind_eq_ok_iff.mp h
  obtain ⟨⟨fleet, result⟩, hcarry, h⟩ := bind_eq_ok_iff.mp h
  cases h
  exact ⟨ctx, world, choices, (selector.call ctx loop.selector).2, found, fleet, result, hlook,
    Prod.ext hcalled rfl, hfound, hcarry, rfl, rfl, rfl, rfl, rfl⟩

theorem carryOne_idle {fleet fleet' : LinkFleet} {result result' : RunResult}
    {choice : String × Option String}
    (h : carryOne rd scenario fleet result choice = .ok (fleet', result')) :
    fleet'.idle = fleet.idle := by
  obtain ⟨classId, linkId⟩ := choice
  cases linkId with
  | none =>
    cases h
    rfl
  | some linkId =>
    obtain ⟨up, -, h⟩ := bind_eq_ok_iff.mp h
    cases up with
    | false =>
      cases h
      rfl
    | true =>
      obtain ⟨model, -, h⟩ := bind_eq_ok_iff.mp h
      obtain ⟨spent, -, h⟩ := bind_eq_ok_iff.mp h
      have hcarried (bytes : Int) :
          (fleet.models.modify linkId (.carry bytes)).map LinkModel.idle =
            fleet.models.map LinkModel.idle :=
        Dict.map_modify_unseen (fun m => idle_carry bytes m) fleet.models linkId
      cases spent with
      | false =>
        cases h
        exact congrArg LinkFleet.mk (hcarried _)
      | true =>
        obtain ⟨gb, -, h⟩ := bind_eq_ok_iff.mp h
        cases h
        exact congrArg LinkFleet.mk (hcarried _)

theorem carryAll_idle {choices : Choices} {fleet fleet' : LinkFleet} {result result' : RunResult}
    (h : carryAll rd scenario choices fleet result = .ok (fleet', result')) :
    fleet'.idle = fleet.idle := by
  induction choices generalizing fleet result with
  | nil =>
    cases h
    rfl
  | cons choice choices ih =>
    obtain ⟨⟨fleet₁, result₁⟩, hone, h⟩ := bind_eq_ok_iff.mp h
    exact (ih h).trans (carryOne_idle hone)

/-- Every step before the last of a run was taken. -/
theorem after_step {loop start : Loop ρ σ} {n k : Nat}
    (h : Loop.after rd generator scenario selector start n = .ok loop) (hk : k < n) :
    ∃ before after, Loop.after rd generator scenario selector start k = .ok before ∧
      before.step rd generator scenario selector k = .ok after ∧
      Loop.after rd generator scenario selector start (k + 1) = .ok after := by
  induction n generalizing loop with
  | zero => exact absurd hk (Nat.not_lt_zero k)
  | succ n ih =>
    obtain ⟨before, hbefore, hstep⟩ := bind_eq_ok_iff.mp h
    rcases Nat.lt_succ_iff_lt_or_eq.mp hk with hlt | rfl
    · exact ih hbefore hlt
    · exact ⟨before, loop, hbefore, hstep, h⟩

end World

/-! ## The world of a run -/

/-- Contexts that differ in how much of their quotas the links report to be used. -/
structure QuotasApart (ctx ctx' : SelectorContext) : Prop where
  now : ctx.now = ctx'.now
  observations : unmetered ctx.evidence.observations = unmetered ctx'.evidence.observations
  links : ctx.links = ctx'.links
  classes : ctx.classes = ctx'.classes
  authorityReachable : ctx.authorityReachable = ctx'.authorityReachable

section Reference
variable {rd : ℚ → Double} {ρ σ : Type} {generator : Random ρ} {scenario : Scenario}
  {selector : Selector σ} {step : Nat}

theorem look_ok {world world' : World ρ} {ctx : SelectorContext}
    (h : world.look rd generator scenario step = .ok (ctx, world')) :
    scenario.happen step world.scene = .ok world'.scene ∧
      world'.scene.fleet.step rd generator ctx.now world.rng =
        .ok (ctx.evidence.observations, world'.rng) ∧
      ctx.links = scenario.links.items ∧ ctx.classes = scenario.classes.items := by
  obtain ⟨_, -, h⟩ := bind_eq_ok_iff.mp h
  obtain ⟨now, -, h⟩ := bind_eq_ok_iff.mp h
  obtain ⟨scene, hscene, h⟩ := bind_eq_ok_iff.mp h
  obtain ⟨⟨reported, rng⟩, hreported, h⟩ := bind_eq_ok_iff.mp h
  cases h
  exact ⟨hscene, hreported, rfl, rfl⟩

/-- What a step shows does not depend on what the links carried, quotas apart. -/
theorem look_idle {world world' : World ρ} {ctx : SelectorContext}
    (h : world.look rd generator scenario step = .ok (ctx, world')) :
    ∃ ctx', world.idle.look rd generator scenario step = .ok (ctx', world'.idle) ∧
      QuotasApart ctx ctx' := by
  obtain ⟨δ, hδ, h⟩ := bind_eq_ok_iff.mp h
  obtain ⟨now, hnow, h⟩ := bind_eq_ok_iff.mp h
  obtain ⟨scene, hscene, h⟩ := bind_eq_ok_iff.mp h
  obtain ⟨⟨reported, rng⟩, hreported, h⟩ := bind_eq_ok_iff.mp h
  cases h
  obtain ⟨reported', hreported', hsame⟩ := fleet_step_idle hreported
  have hidle : scenario.happen step world.idle.scene = .ok scene.idle := by
    rw [show world.idle.scene = world.scene.idle from rfl, happen_idle, hscene]
    rfl
  refine ⟨_, bind_eq_ok_iff.mpr ⟨δ, hδ, bind_eq_ok_iff.mpr ⟨now, hnow, bind_eq_ok_iff.mpr
    ⟨scene.idle, hidle, bind_eq_ok_iff.mpr ⟨_, hreported', rfl⟩⟩⟩⟩, ?_⟩
  exact ⟨rfl, hsame.symm, rfl, rfl, rfl⟩

/-- Carrying traffic leaves the world as it is, but for the bytes carried. -/
theorem step_idle_world {loop loop' : Loop ρ σ}
    (h : loop.step rd generator scenario selector step = .ok loop') :
    ∃ ctx, loop.world.idle.look rd generator scenario step = .ok (ctx, loop'.world.idle) := by
  obtain ⟨ctx, world, choices, state, found, fleet, result, hlook, -, -, hcarry, hworld, -, -⟩ :=
    step_ok h
  obtain ⟨ctx', hlook', -⟩ := look_idle hlook
  have hidle : loop'.world.idle = world.idle := by
    rw [hworld]
    exact congrArg (fun fleet => World.mk world.rng { world.scene with fleet := fleet })
      (carryAll_idle hcarry)
  rw [hidle]
  exact ⟨ctx', hlook'⟩

theorem world_of_loop {seed : Int} {state : σ} {n : Nat} {loop : Loop ρ σ}
    (h : Loop.after rd generator scenario selector (.start generator scenario seed state) n =
      .ok loop) : scenario.worldAt rd generator seed n = .ok loop.world.idle := by
  induction n generalizing loop with
  | zero =>
    cases h
    rfl
  | succ n ih =>
    obtain ⟨before, hbefore, h⟩ := bind_eq_ok_iff.mp h
    obtain ⟨ctx, hlook⟩ := step_idle_world h
    exact bind_eq_ok_iff.mpr ⟨_, ih hbefore, bind_eq_ok_iff.mpr ⟨_, hlook, rfl⟩⟩

theorem scene_of_world {seed : Int} {n : Nat} {world : World ρ}
    (h : scenario.worldAt rd generator seed n = .ok world) :
    scenario.sceneAt n = .ok world.scene := by
  induction n generalizing world with
  | zero =>
    cases h
    rfl
  | succ n ih =>
    obtain ⟨before, hbefore, h⟩ := bind_eq_ok_iff.mp h
    obtain ⟨⟨ctx, after⟩, hlook, h⟩ := bind_eq_ok_iff.mp h
    cases h
    exact bind_eq_ok_iff.mpr ⟨_, ih hbefore, (look_ok hlook).1⟩

theorem scene_of_loop {seed : Int} {state : σ} {n : Nat} {loop : Loop ρ σ}
    (h : Loop.after rd generator scenario selector (.start generator scenario seed state) n =
      .ok loop) : scenario.sceneAt n = .ok loop.world.scene.idle :=
  scene_of_world (world_of_loop h)

end Reference

namespace Sample

/-- The first numbers drawn from the generator that was seeded with nought. -/
def draws : Random (List Double) where
  seeded _ := [7605875871743422, 6827046333291546, 3788172029424828, 2332114760278739,
    4605153289279239, 3647322461062558].map fun n : ℚ => .fin (n / 9007199254740992)
  random
    | [] => (.nan, [])
    | u :: drawn => (u, drawn)

/-- A fiber and a metered link, one class, and two steps of half a minute. -/
def scenario (events : List Event) : Scenario where
  bundle := bundle 1
  fleet := ⟨.ofEntries [("fiber0", fiberModel "fiber0"), ("lte0", lteModel "lte0")]⟩
  trafficBytesPerS := .ofEntries [("bulk", 1000000)]
  events := events
  durationS := 60
  stepS := 30

end Sample

end Pilotfish
