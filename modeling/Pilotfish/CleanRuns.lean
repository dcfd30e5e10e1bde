import Pilotfish.DegradedTime

/-!
# Runs without violations

A governed run can go wrong in three ways: by a link that is slower than it was measured, by an
allowance that the floor does not ask after, and by a link that is lent. A benign scenario rules out
the first and the last, and contact with the authority the second.

Results:
1. `setting_of_applyEvent`, `happenAll_keeps`: what an event sets, and what all events keep.
2. `step_blameless`: what a step has to do for the oracle to find nothing.
3. `run_clean`: in contact a run finds nothing and is never degraded, whatever is drawn.
-/

namespace Pilotfish
open Python

/-! ## What events set -/

section Events
variable {rd : ℚ → Double} {fleet fleet' : LinkFleet} {scene scene' : Scene}

/-- What an event sets: an attribute of the model it names, or whether the authority is reachable. -/
inductive Setting (fleet : LinkFleet) (event : Event) (authority : Bool) : LinkFleet → Bool → Prop
  | up {fleet' : LinkFleet} (up : Bool)
      (assigned : fleet.assign event.target "up" (.setUp up) = .ok fleet') :
      Setting fleet event authority fleet' authority
  | visibility {fleet' : LinkFleet} (visibilityM : Double)
      (assigned : fleet.assign event.target "visibility_m" (.setVisibility visibilityM) = .ok fleet') :
      Setting fleet event authority fleet' authority
  | obstructed {fleet' : LinkFleet} (obstructed : Bool)
      (kind : event.kind = .obstruct ∨ event.kind = .unobstruct)
      (assigned : fleet.assign event.target "obstructed" (.setObstructed obstructed) = .ok fleet') :
      Setting fleet event authority fleet' authority
  | sensorFailed {fleet' : LinkFleet} (failed : Bool) (kind : failed = true → event.kind = .sensorFail)
      (assigned : fleet.assign event.target "sensor_failed" (.setSensorFailed failed) = .ok fleet') :
      Setting fleet event authority fleet' authority
  | authority {authority' : Bool} (kind : event.kind = .authorityUnreachable ∧ authority' = false ∨
      event.kind = .authorityReachable ∧ authority' = true) :
      Setting fleet event authority fleet authority'

theorem setting_of_applyEvent {event : Event} {authority authority' : Bool}
    (h : applyEvent fleet event authority = .ok (fleet', authority')) :
    Setting fleet event authority fleet' authority' := by
  have hassign {set : LinkModel → LinkModel} {field : String}
      (hsets : fleet.assign event.target field set = .ok fleet' →
        Setting fleet event authority fleet' authority)
      (h : (fleet.assign event.target field set).map (·, authority) = .ok (fleet', authority')) :
      Setting fleet event authority fleet' authority' := by
    obtain ⟨assigned, hassigned, hpair⟩ := map_eq_ok_iff.mp h
    cases hpair
    exact hsets hassigned
  obtain ⟨_, kind, _⟩ := event
  cases kind with
  | linkDown => exact hassign (.up false) h
  | linkUp => exact hassign (.up true) h
  | fog => exact hassign (.visibility fogVisibilityM) h
  | clear => exact hassign (.visibility clearVisibilityM) h
  | obstruct => exact hassign (.obstructed true (.inl rfl)) h
  | unobstruct => exact hassign (.obstructed false (.inr rfl)) h
  | sensorFail => exact hassign (.sensorFailed true fun _ => rfl) h
  | sensorRecover => exact hassign (.sensorFailed false nofun) h
  | authorityUnreachable =>
    cases h
    exact .authority (.inl ⟨rfl, rfl⟩)
  | authorityReachable =>
    cases h
    exact .authority (.inr ⟨rfl, rfl⟩)

/-- What every event keeps is kept by all that happen in a step. -/
theorem happenAll_keeps {P : LinkFleet → Bool → Prop} {step : Nat} {atS : Int}
    {events : List (Event × Nat)}
    (hkeeps : ∀ entry ∈ events, ∀ {fleet fleet' : LinkFleet} {authority authority' : Bool},
      P fleet authority → applyEvent fleet entry.1 authority = .ok (fleet', authority') →
        P fleet' authority')
    (hscene : P scene.fleet scene.authorityReachable)
    (h : scene.happenAll step atS events = .ok scene') :
    P scene'.fleet scene'.authorityReachable := by
  induction events generalizing scene with
  | nil =>
    cases h
    exact hscene
  | cons entry events ih =>
    obtain ⟨event, place⟩ := entry
    obtain ⟨hfirst, hrest⟩ := List.forall_mem_cons.mp hkeeps
    unfold Scene.happenAll at h
    split_ifs at h
    · obtain ⟨⟨fleet, authority⟩, happly, h⟩ := bind_eq_ok_iff.mp h
      exact ih hrest (hfirst hscene happly) h
    · exact ih hrest hscene h

/-! ### Latency and contact -/

def LinkFleet.latencies (rd : ℚ → Double) (fleet : LinkFleet) : Dict String (Option Double) :=
  fleet.models.map (·.trueRtt rd)

theorem trueRtt_of_latencies (h : fleet'.latencies rd = fleet.latencies rd) :
    fleet'.trueRtt rd = fleet.trueRtt rd := by
  have hread (fleet : LinkFleet) : fleet.trueRtt rd =
      (fleet.latencies rd).items.filterMap fun item => item.2.map (item.1, ·) := by
    rw [LinkFleet.latencies, Dict.items_map, List.filterMap_map]
    rfl
  rw [hread, hread, h]

theorem latencies_idle (fleet : LinkFleet) : fleet.idle.latencies rd = fleet.latencies rd := by
  refine Dict.ext_items ?_
  show ((fleet.models.items.map _).map _) = _
  rw [List.map_map]
  rfl

/-- An event that slows no link down and speeds none up. -/
def Event.Steady (event : Event) : Prop := event.kind ≠ .obstruct ∧ event.kind ≠ .unobstruct

instance (event : Event) : Decidable event.Steady := inferInstanceAs (Decidable (_ ∧ _))

theorem applyEvent_steady {event : Event} (hsteady : event.Steady) {authority authority' : Bool}
    (h : applyEvent fleet event authority = .ok (fleet', authority')) :
    fleet'.latencies rd = fleet.latencies rd := by
  have hup (b : Bool) (m : LinkModel) : (m.setUp b).trueRtt rd = m.trueRtt rd := rfl
  have hsensor (b : Bool) (m : LinkModel) : (m.setSensorFailed b).trueRtt rd = m.trueRtt rd := rfl
  have hvisibility (v : Double) (m : LinkModel) : (m.setVisibility v).trueRtt rd = m.trueRtt rd := by
    obtain ⟨_, _, _, _, kind⟩ := m
    cases kind <;> rfl
  cases setting_of_applyEvent h with
  | up up hassigned => exact assign_map (hup up) hassigned
  | visibility v hassigned => exact assign_map (hvisibility v) hassigned
  | obstructed b hkind =>
    rcases hkind with hkind | hkind
    · exact absurd hkind hsteady.1
    · exact absurd hkind hsteady.2
  | sensorFailed failed hkind hassigned => exact assign_map (hsensor failed) hassigned
  | authority => rfl

theorem happenAll_steady {step : Nat} {atS : Int} {events : List (Event × Nat)}
    (hsteady : ∀ entry ∈ events, entry.1.Steady)
    (h : scene.happenAll step atS events = .ok scene') :
    scene'.fleet.latencies rd = scene.fleet.latencies rd := by
  refine happenAll_keeps (P := fun fleet _ => fleet.latencies rd = scene.fleet.latencies rd) ?_ rfl h
  intro entry hentry _ _ _ _ hbefore happly
  exact (applyEvent_steady (hsteady entry hentry) happly).trans hbefore

/-- Only one kind of event breaks the contact. -/
theorem applyEvent_contact {event : Event} (hkind : event.kind ≠ .authorityUnreachable)
    {authority authority' : Bool} (hcontact : authority = true)
    (h : applyEvent fleet event authority = .ok (fleet', authority')) : authority' = true := by
  cases setting_of_applyEvent h with
  | authority hsets =>
    rcases hsets with ⟨hbreaks, -⟩ | ⟨-, hrestored⟩
    · exact absurd hbreaks hkind
    · exact hrestored
  | _ => exact hcontact

theorem happenAll_contact {step : Nat} {atS : Int} {events : List (Event × Nat)}
    (hkinds : ∀ entry ∈ events, entry.1.kind ≠ .authorityUnreachable)
    (hcontact : scene.authorityReachable = true)
    (h : scene.happenAll step atS events = .ok scene') : scene'.authorityReachable = true :=
  happenAll_keeps (P := fun _ authority => authority = true)
    (fun entry hentry => applyEvent_contact (hkinds entry hentry)) hcontact h

end Events

/-! ## Benign scenarios -/

/-- A scenario whose policy covers its demands, and whose links keep to the bounds. -/
structure Scenario.Benign (scenario : Scenario) (rd : ℚ → Double) (validity : Int) : Prop where
  reissuable : Reissuable scenario.bundle validity
  covers : Covers scenario.bundle scenario.fleet
  strictest : FirstStrictest scenario.bundle
  prompt : ∀ c ∈ scenario.bundle.trafficClasses, ∀ item ∈ scenario.fleet.trueRtt rd,
    missesLatency c (some item.2) = .ok false
  steady : ∀ event ∈ scenario.events, event.Steady

/-- The site stays in contact with its authority. -/
def Scenario.InContact (scenario : Scenario) : Prop :=
  ∀ event ∈ scenario.events, event.kind ≠ .authorityUnreachable

section Runs
variable {rt : Runtime} (laws : rt.Lawful) {rd : ℚ → Double} {ρ : Type} {generator : Random ρ}
  {scenario : Scenario} {authorityKey siteKey : rt.PrivateKey} {siteId : String} {validity : Int}
  {undeclared : Undeclared}

theorem prompt_lookup (hbenign : scenario.Benign rd validity) {c : TrafficClass}
    (hc : c ∈ scenario.bundle.trafficClasses) (linkId : String) :
    missesLatency c ((scenario.fleet.trueRtt rd).lookup linkId) = .ok false := by
  cases hlookup : (scenario.fleet.trueRtt rd).lookup linkId with
  | none =>
    unfold missesLatency
    split
    · next h => cases h
    · rfl
  | some rtt =>
    obtain ⟨before, after, hsplit, -⟩ := List.lookup_eq_some_iff.mp hlookup
    exact hbenign.prompt c hc (linkId, rtt) (by rw [hsplit]; simp)

/-- In a benign scenario only a spent allowance is excused, and only in degraded mode. -/
theorem spent_of_excused (hbenign : scenario.Benign rd validity) {fleet : LinkFleet}
    (hsame : fleet.latencies rd = scenario.fleet.latencies rd) {ctx : SelectorContext}
    {d : EligibilityDecision} {v : Violation} (h : Excused rd scenario.bundle fleet ctx d v) :
    fleet.spent rd v.linkId = .ok true ∧ d.degraded = true := by
  have hprompt {c : TrafficClass} (hasked : c ∈ scenario.bundle.trafficClasses) :
      ¬Late rd fleet c v := by
    rintro ⟨-, hslow⟩
    rw [trueRtt_of_latencies hsame, prompt_lookup hbenign hasked] at hslow
    cases hslow
  cases h with
  | latency asked _ late _ _ => exact absurd late (hprompt asked)
  | allowance carried spent degraded => exact ⟨spent, degraded⟩
  | lent _ head asked _ used _ _ fits _ violated =>
    rcases violated with forbidden | late
    · obtain ⟨requirement, hfirst⟩ := hbenign.strictest _ head _ asked _ used _ forbidden
      exact absurd hfirst (fits requirement)
    · exact absurd late (hprompt asked)

/-- The loop of a benign scenario in which nothing was found. -/
structure Blameless (scenario : Scenario) (rd : ℚ → Double) (loop : Loop ρ (Governed rt)) :
    Prop where
  latencies : loop.world.scene.fleet.latencies rd = scenario.fleet.latencies rd
  identities : loop.world.scene.fleet.identities = scenario.fleet.identities
  governs : Governs scenario.bundle loop.selector
  violations : loop.result.violations = []

include laws

theorem start_blameless {start : Governed rt} {seed : Int}
    (hstart : Governed.reset authorityKey siteKey scenario.bundle siteId = .ok start) :
    Blameless scenario rd (Loop.start generator scenario seed start) :=
  ⟨rfl, rfl, governs_reset laws hstart, rfl⟩

/-- A step that is not degraded, or in which no allowance is spent, finds nothing. -/
theorem step_blameless (hbenign : scenario.Benign rd validity) {step : Nat}
    {before after : Loop ρ (Governed rt)} (hbefore : Blameless scenario rd before)
    (h : before.step rd generator scenario
      (governed authorityKey siteKey scenario.bundle siteId undeclared) step = .ok after)
    (hspared : after.selector.lastDegraded = true → ∀ ctx world,
      before.world.look rd generator scenario step = .ok (ctx, world) →
      ∀ linkId, world.scene.fleet.spent rd linkId ≠ .ok true) : Blameless scenario rd after := by
  obtain ⟨hgoverns, ctx, world, d, hlook, hdecision, hfound⟩ :=
    step_excused laws hbenign.covers hbefore.governs hbefore.identities h
  obtain ⟨_, _, choices, state, found, fleet, result, hlook', hcall, -, hcarry, rfl⟩ := step_eq_ok h
  cases hlook.symm.trans hlook'
  have hsame : world.scene.fleet.latencies rd = before.world.scene.fleet.latencies rd :=
    happenAll_steady (fun entry hentry => hbenign.steady _ (List.fst_mem_of_mem_zipIdx hentry))
      (look_ok hlook).1
  refine ⟨?_, ?_, hgoverns, ?_⟩
  · show fleet.latencies rd = _
    rw [← latencies_idle, carryAll_idle hcarry, latencies_idle, hsame, hbefore.latencies]
  · show fleet.identities = _
    rw [← identities_idle, carryAll_idle hcarry, identities_idle, look_identities hlook,
      hbefore.identities]
  · refine List.eq_nil_iff_forall_not_mem.mpr ?_
    intro v hv
    rcases hfound v hv with hold | ⟨-, hexcused⟩
    · rw [hbefore.violations] at hold
      cases hold
    · obtain ⟨hspent, hdegraded⟩ :=
        spent_of_excused hbenign (hsame.trans hbefore.latencies) hexcused
      refine hspared ?_ ctx world hlook v.linkId hspent
      rw [← hdegraded]
      exact call_degraded undeclared ctx hcall hdecision

/-! ## In contact -/

omit laws in
/-- The loop of a benign scenario in contact, which was never degraded. -/
structure Clean (scenario : Scenario) (rd : ℚ → Double) (authorityKey : rt.PrivateKey)
    (floor : PolicyBundle) (validity : Int) (loop : Loop ρ (Governed rt)) : Prop where
  blameless : Blameless scenario rd loop
  contact : loop.world.scene.authorityReachable = true
  inStep : ∃ last published,
    InStep authorityKey scenario.bundle floor validity last published loop.selector
  degradedS : loop.result.degradedS = 0

/-- A step finds nothing and is not degraded. -/
theorem step_clean (hbenign : scenario.Benign rd validity) (hkept : scenario.InContact)
    {floor : PolicyBundle} {step : Nat} {before after : Loop ρ (Governed rt)}
    (hbefore : Clean scenario rd authorityKey floor validity before)
    (h : before.step rd generator scenario
      (governed authorityKey siteKey scenario.bundle siteId undeclared) step = .ok after) :
    Clean scenario rd authorityKey floor validity after := by
  obtain ⟨ctx, world, choices, state, found, fleet, result, hlook, hcall, -, hcarry, hafter⟩ :=
    step_eq_ok h
  obtain ⟨last, published, hinStep⟩ := hbefore.inStep
  have hcontact : world.scene.authorityReachable = true :=
    happenAll_contact (fun entry hentry => hkept _ (List.fst_mem_of_mem_zipIdx hentry))
      hbefore.contact (look_ok hlook).1
  have hnow := look_now hlook
  obtain ⟨⟨published', hinStep'⟩, hforce⟩ := call_inStep laws hbenign.reissuable hinStep
    ⟨1787918400 + scenario.atS step, by rw [hnow, add_mul]; rfl⟩ hcall
  have hin : InForce validity (contactAfter last ctx) ctx.now := by
    have hpositive := hbenign.reissuable.positive
    refine ⟨ctx.now, ?_, by omega⟩
    rw [contactAfter, look_reachable hlook, hcontact]
    rfl
  have hflag : state.lastDegraded = false := hforce.mpr hin
  have hresult := (carryAll_tallies hcarry).2
  refine ⟨step_blameless laws hbenign hbefore.blameless h ?_, ?_, ?_, ?_⟩
  · subst hafter
    intro hdegraded
    rw [show state.lastDegraded = true from hdegraded] at hflag
    cases hflag
  · rw [hafter]
    exact hcontact
  · rw [hafter]
    exact ⟨_, published', hinStep'⟩
  · rw [hafter]
    show result.degradedS + (if state.lastDegraded then scenario.stepS else 0) = 0
    rw [hflag, hresult]
    simp [hbefore.degradedS]

theorem after_clean (hbenign : scenario.Benign rd validity) (hkept : scenario.InContact)
    {start : Governed rt}
    (hstart : Governed.reset authorityKey siteKey scenario.bundle siteId = .ok start) {seed : Int} :
    ∃ floor, ∀ n loop, Loop.after rd generator scenario
      (governed authorityKey siteKey scenario.bundle siteId undeclared)
      (.start generator scenario seed start) n = .ok loop →
      Clean scenario rd authorityKey floor validity loop := by
  obtain ⟨floor, -, -, hinit⟩ := inStep_reset laws hbenign.reissuable.whole hstart
  refine ⟨floor, ?_⟩
  intro n
  induction n with
  | zero =>
    intro loop h
    cases h
    exact ⟨start_blameless laws hstart, rfl, ⟨none, 0, hinit⟩, rfl⟩
  | succ n ih =>
    intro loop h
    obtain ⟨before, hbefore, hstep⟩ := bind_eq_ok_iff.mp h
    exact step_clean laws hbenign hkept (ih before hbefore) hstep

/-- A governed run of a benign scenario in contact violates nothing and is never degraded, whatever
was drawn and however the arithmetic rounds. -/
theorem run_clean (hbenign : scenario.Benign rd validity) (hkept : scenario.InContact)
    {s : Governed rt} {seed : Int} {result : RunResult} (h : run rd generator scenario
      (governed authorityKey siteKey scenario.bundle siteId undeclared) s seed = .ok result) :
    result.violations = [] ∧ result.degradedS = 0 := by
  obtain ⟨start, steps, loop, hstart, -, hloop, rfl⟩ := after_of_run h
  obtain ⟨floor, hclean⟩ := after_clean laws hbenign hkept hstart
  exact ⟨(hclean _ loop hloop).blameless.violations, (hclean _ loop hloop).degradedS⟩

end Runs

namespace Scenarios

/-- The scenarios in which the site stays in contact. -/
def inContact : List NamedScenario := [plainFailover, quotaSqueeze, regulated, flappy]

theorem trueRtt_fleet (rd : ℚ → Double) (quotaGb : Double) : (fleet quotaGb).trueRtt rd =
    [("fiber0", .fin 8), ("lte0", .fin 45), ("sat0", .fin 90), ("fso0", .fin 3)] := by
  rw [LinkFleet.trueRtt, fleet_items]
  rfl

theorem flappy_kind {event : Event} (h : event ∈ flappy.events) :
    event.kind = .fog ∨ event.kind = .clear := by
  obtain ⟨second, -, rfl⟩ := List.mem_map.mp h
  dsimp only
  split_ifs
  · exact .inl rfl
  · exact .inr rfl

/-- The policy of the site and its links rule out every excuse but the one of degraded mode. -/
theorem benign_shipped (rd : ℚ → Double) {scenario : NamedScenario} (h : scenario ∈ allScenarios) :
    ∃ validity, scenario.toScenario.Benign rd validity := by
  have hsite {events : List Event} (hsteady : ∀ event ∈ events, event.Steady) (quotaGb : Double)
      {notAfter : DateTime} {validity : Int}
      (hvalidity : notAfter.us - T0.us = validity * 1000000) (hpositive : 1 ≤ validity)
      (d : Dict String Int) : Scenario.Benign
        ⟨policy notAfter 120, fleet quotaGb, d, events, 3600, 30⟩ rd validity := by
    refine ⟨reissuable_policy _ _ hvalidity hpositive, covers_policy _ _ _, strictest_policy _ _, ?_,
      hsteady⟩
    intro c hc item hitem
    simp only [trueRtt_fleet, List.mem_cons, List.not_mem_nil, or_false] at hitem
    simp only [policy, classes, List.mem_cons, List.not_mem_nil, or_false] at hc
    rcases hc with rfl | rfl | rfl
    · rfl
    · rcases hitem with rfl | rfl | rfl | rfl <;> decide
    · rcases hitem with rfl | rfl | rfl | rfl <;> decide
  have hflappy : ∀ event ∈ flappy.events, event.Steady := by
    intro event hevent
    rcases flappy_kind hevent with hkind | hkind
    · exact ⟨by rw [hkind]; decide, by rw [hkind]; decide⟩
    · exact ⟨by rw [hkind]; decide, by rw [hkind]; decide⟩
  simp only [allScenarios, List.mem_cons, List.not_mem_nil, or_false] at h
  rcases h with rfl | rfl | rfl | rfl | rfl
  · exact ⟨1800, hsite (by decide) _ rfl (by decide) _⟩
  · exact ⟨1800, hsite (by decide) _ rfl (by decide) _⟩
  · exact ⟨1800, hsite (by decide) _ rfl (by decide) _⟩
  · exact ⟨1800, hsite hflappy _ rfl (by decide) _⟩
  · exact ⟨900, hsite (by decide) _ rfl (by decide) _⟩

theorem shipped_of_inContact {scenario : NamedScenario} (h : scenario ∈ inContact) :
    scenario ∈ allScenarios ∧ scenario.toScenario.InContact := by
  simp only [inContact, List.mem_cons, List.not_mem_nil, or_false] at h
  unfold Scenario.InContact
  rcases h with rfl | rfl | rfl | rfl
  · exact ⟨by simp [allScenarios], by decide⟩
  · exact ⟨by simp [allScenarios], by decide⟩
  · exact ⟨by simp [allScenarios], by decide⟩
  · refine ⟨by simp [allScenarios], ?_⟩
    intro event hevent
    rcases flappy_kind hevent with hkind | hkind <;> rw [hkind] <;> decide

end Scenarios

/-- The run that squeezes the allowance, over exact numbers. -/
theorem run_clean_sample : ∃ s result, run .fin Sample.halves Scenarios.quotaSqueeze.toScenario
      (governed Sample.signer.key Sample.siteKey Scenarios.quotaSqueeze.bundle "sim-site"
        Sample.undeclared) s 0 = .ok result ∧ result.violations = [] ∧ result.degradedS = 0 := by
  obtain ⟨hshipped, hkept⟩ := Scenarios.shipped_of_inContact (.tail _ (.head _) :
    Scenarios.quotaSqueeze ∈ Scenarios.inContact)
  obtain ⟨validity, hbenign⟩ := Scenarios.benign_shipped .fin hshipped
  obtain ⟨s, result, hrun⟩ := Sample.shipped_run hshipped
  exact ⟨s, result, hrun, run_clean lawful_standIn hbenign hkept hrun⟩

end Pilotfish
