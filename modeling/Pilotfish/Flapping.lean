import Pilotfish.CleanRuns

/-!
# How often hysteresis flaps

A class flaps when it is given another link than in the step before. Off a link that is down there
is no staying. Off a link that is up the hysteresis selector moves only once the dwell time is over,
and what it moves to it holds since then: each move is paid for by the time that went by.

Results:
1. `observedUp_of_up`: without failing sensors a link that is up is observed up.
2. `step_paid`: what a step moves off live links is paid for by the clock.
3. `run_damped`: flaps off live links take a dwell time each, over every run.
-/

namespace Pilotfish
open Python

/-! ## Sensors -/

/-- No sensor has failed. -/
def LinkFleet.Sensed (fleet : LinkFleet) : Prop :=
  ∀ item ∈ fleet.models.items, item.2.sensorFailed = false

/-- No sensor ever fails. -/
structure Scenario.Sensed (scenario : Scenario) : Prop where
  fleet : scenario.fleet.Sensed
  events : ∀ event ∈ scenario.events, event.kind ≠ .sensorFail

section Events
variable {fleet fleet' : LinkFleet} {scene scene' : Scene}

theorem sensed_idle : fleet.idle.Sensed ↔ fleet.Sensed := by
  unfold LinkFleet.Sensed
  show (∀ item ∈ fleet.models.items.map _, _) ↔ _
  simp only [List.forall_mem_map]
  rfl

theorem sensed_assign {set : LinkModel → LinkModel}
    (hset : ∀ m : LinkModel, m.sensorFailed = false → (set m).sensorFailed = false)
    (hsensed : fleet.Sensed) {target field : String}
    (h : fleet.assign target field set = .ok fleet') : fleet'.Sensed := by
  unfold LinkFleet.assign at h
  split at h
  · cases h
  · cases h
    intro item hitem
    obtain ⟨before, hbefore, rfl⟩ := List.mem_map.mp hitem
    dsimp only
    split_ifs
    · exact hset _ (hsensed before hbefore)
    · exact hsensed before hbefore

theorem applyEvent_sensed {event : Event} (hkind : event.kind ≠ .sensorFail)
    {authority authority' : Bool} (hsensed : fleet.Sensed)
    (h : applyEvent fleet event authority = .ok (fleet', authority')) : fleet'.Sensed := by
  have hup (b : Bool) (m : LinkModel) (hm : m.sensorFailed = false) :
      (m.setUp b).sensorFailed = false := hm
  have hvisibility (v : Double) (m : LinkModel) (hm : m.sensorFailed = false) :
      (m.setVisibility v).sensorFailed = false := by
    unfold LinkModel.setVisibility
    split <;> exact hm
  have hobstructed (b : Bool) (m : LinkModel) (hm : m.sensorFailed = false) :
      (m.setObstructed b).sensorFailed = false := by
    unfold LinkModel.setObstructed
    split <;> exact hm
  cases setting_of_applyEvent h with
  | up up hassigned => exact sensed_assign (hup up) hsensed hassigned
  | visibility v hassigned => exact sensed_assign (hvisibility v) hsensed hassigned
  | obstructed b _ hassigned => exact sensed_assign (hobstructed b) hsensed hassigned
  | sensorFailed failed hfails hassigned =>
    refine sensed_assign (fun m _ => ?_) hsensed hassigned
    exact Bool.eq_false_of_not_eq_true fun hfailed => hkind (hfails hfailed)
  | authority => exact hsensed

theorem happenAll_sensed {step : Nat} {atS : Int} {events : List (Event × Nat)}
    (hkinds : ∀ entry ∈ events, entry.1.kind ≠ .sensorFail) (hsensed : scene.fleet.Sensed)
    (h : scene.happenAll step atS events = .ok scene') : scene'.fleet.Sensed :=
  happenAll_keeps (P := fun fleet _ => fleet.Sensed)
    (fun entry hentry => applyEvent_sensed (hkinds entry hentry)) hsensed h

end Events

section Sensing
variable {rd : ℚ → Double} {ρ : Type} {generator : Random ρ} {t : DateTime} {rng rng' : ρ}
  {m : LinkModel} {reported : List Observation}

/-- Some measurement says whether the link is up. -/
def SaysUp (m : LinkModel) (reported : List Observation) : Prop :=
  ∃ o ∈ reported, o.linkId = m.linkId ∧ o.quantity = "up"

theorem saysUp_first {o : Observation} {more : List Observation} {value : Double}
    (h : observation m.linkId "up" value t "agent" = .ok o) : SaysUp m (o :: more) := by
  obtain ⟨hfinite, rfl⟩ := observation_eq_ok.mp h
  exact ⟨_, List.mem_cons_self, rfl, rfl⟩

theorem down_saysUp {after : ρ}
    (h : (do return ([← m.liveness t], after)) = Except.ok (reported, rng')) :
    SaysUp m reported := by
  obtain ⟨up, hlive, h⟩ := bind_eq_ok_iff.mp h
  cases h
  exact saysUp_first hlive

/-- A sensor that works says whether its link is up. -/
theorem step_saysUp (hsensor : m.sensorFailed = false)
    (h : m.step rd generator t rng = .ok (reported, rng')) : SaysUp m reported := by
  unfold LinkModel.step at h
  rw [hsensor] at h
  change m.observe rd generator t rng = _ at h
  cases hquota : m.quotaGb with
  | some quotaGb =>
    obtain ⟨-, rtt, after, hobserve⟩ := observe_of_quota rd generator t rng hquota
    rw [hobserve m rfl] at h
    split_ifs at h
    · obtain ⟨up, hlive, h⟩ := bind_eq_ok_iff.mp h
      obtain ⟨latency, -, h⟩ := bind_eq_ok_iff.mp h
      obtain ⟨pct, -, h⟩ := bind_eq_ok_iff.mp h
      obtain ⟨used, -, h⟩ := bind_eq_ok_iff.mp h
      cases h
      exact saysUp_first hlive
    · exact down_saysUp h
  | none =>
    unfold LinkModel.observe at h
    cases hkind : m.kind with
    | base => simp [hkind] at h
    | fiber baseRttMs =>
      rw [hkind] at h
      dsimp only at h
      split_ifs at h
      · obtain ⟨up, hlive, h⟩ := bind_eq_ok_iff.mp h
        obtain ⟨latency, -, h⟩ := bind_eq_ok_iff.mp h
        cases h
        exact saysUp_first hlive
      · exact down_saysUp h
    | fso visibilityM baseRttMs usableVisibilityM =>
      rw [hkind] at h
      obtain ⟨up, hlive, h⟩ := bind_eq_ok_iff.mp h
      obtain ⟨visibility, -, h⟩ := bind_eq_ok_iff.mp h
      split_ifs at h
      · obtain ⟨latency, -, h⟩ := bind_eq_ok_iff.mp h
        cases h
        exact saysUp_first hlive
      · cases h
        exact saysUp_first hlive
    | lte _ _ _ _ => simp [LinkModel.quotaGb, hkind] at hquota
    | satellite _ _ _ _ => simp [LinkModel.quotaGb, hkind] at hquota

theorem stepItems_saysUp {items : List (String × LinkModel)}
    (hsensors : ∀ item ∈ items, item.2.sensorFailed = false)
    (h : LinkFleet.stepItems rd generator t items rng = .ok (reported, rng')) :
    ∀ item ∈ items, SaysUp item.2 reported := by
  induction items generalizing rng reported with
  | nil =>
    intro item hitem
    cases hitem
  | cons item items ih =>
    obtain ⟨hfirst, hrest⟩ := List.forall_mem_cons.mp hsensors
    unfold LinkFleet.stepItems at h
    obtain ⟨⟨own, rng₁⟩, hown, h⟩ := bind_eq_ok_iff.mp h
    obtain ⟨⟨more, rng₂⟩, hmore, h⟩ := bind_eq_ok_iff.mp h
    obtain ⟨rfl, rfl⟩ := Prod.mk.inj (Except.ok.inj h)
    refine List.forall_mem_cons.mpr ⟨?_, ?_⟩
    · obtain ⟨o, ho, hsays⟩ := step_saysUp hfirst hown
      exact ⟨o, List.mem_append_left _ ho, hsays⟩
    · intro other hother
      obtain ⟨o, ho, hsays⟩ := ih hrest hmore other hother
      exact ⟨o, List.mem_append_right _ ho, hsays⟩

/-- Without failing sensors a link that is up is observed up. -/
theorem observedUp_of_up {fleet : LinkFleet} (hkeyed : fleet.Keyed) (hsensed : fleet.Sensed)
    {evidence : EvidenceSnapshot}
    (h : fleet.step rd generator t rng = .ok (evidence.observations, rng')) {linkId : String}
    (hup : fleet.upStates.lookup linkId = some true) : observedUp evidence linkId = true := by
  obtain ⟨m, hm, hisUp⟩ : ∃ m, fleet.models.get? linkId = some m ∧ m.isUp = true := by
    rw [LinkFleet.upStates, Dict.lookup_map] at hup
    exact Option.map_eq_some_iff.mp hup
  obtain ⟨o, ho, hlink, hquantity⟩ :=
    stepItems_saysUp hsensed h (linkId, m) (Dict.get?_eq_some.mp hm)
  obtain ⟨p, hlatest, -⟩ := EvidenceSnapshot.latest_isSome
    (EvidenceSnapshot.mem_candidates.mpr ⟨ho, hlink.trans (hkeyed linkId m hm), hquantity⟩)
  obtain ⟨hp, hid, hpquantity⟩ :=
    EvidenceSnapshot.mem_candidates.mp (EvidenceSnapshot.latest_mem hlatest)
  obtain ⟨key, m', hm', hreports⟩ := fleet_reports h hp
  have hkey : key = linkId := by rw [← hkeyed key m' hm', ← hreports.linkId, hid]
  rw [hkey] at hm'
  obtain rfl : m = m' := Option.some.inj (hm.symm.trans hm')
  rw [observedUp, hlatest]
  exact decide_eq_true ((hreports.up hpquantity).mpr hisUp)

end Sensing

/-! ## Moves -/

/-- Whether what was held is a link that is up in this frame. -/
def Frame.live (frame : Frame) (held : Option String) : Bool :=
  held.any fun linkId => frame.up.lookup linkId = some true

/-- How many classes were moved off a link that was up, or else off one that was not. -/
def movedOff (live : Bool) (previous : Choices) (frame : Frame) : Nat :=
  frame.choices.countP fun choice => (previous.lookup choice.1).any fun held =>
    held ≠ choice.2 ∧ frame.live held = live

section Moves
variable {previous : Choices} {frame : Frame} {live : Bool}

theorem flapsOf_eq (previous : Choices) (frame : Frame) : flapsOf previous frame.choices =
    movedOff true previous frame + movedOff false previous frame := by
  unfold flapsOf movedOff
  rw [List.countP_eq_countP_filter_add _ _ fun choice : String × Option String =>
    (previous.lookup choice.1).any frame.live]
  rw [List.countP_filter, List.countP_filter]
  have hsplit (choice : String × Option String) (live : Bool) :
      ((previous.lookup choice.1).any (· ≠ choice.2) = true ∧
        (previous.lookup choice.1).any frame.live = live) ↔
      (previous.lookup choice.1).any (fun held => held ≠ choice.2 ∧ frame.live held = live) = true := by
    cases previous.lookup choice.1 <;> simp
  refine congrArg₂ (· + ·) (List.countP_congr ?_) (List.countP_congr ?_)
  · intro choice _
    rw [← hsplit, Bool.and_eq_true]
  · intro choice _
    rw [← hsplit, Bool.and_eq_true, Bool.not_eq_true']

/-- A flap is off a link that was up, or off one that was not. -/
theorem flapsIn_eq (previous : Choices) (frames : List Frame) : flapsIn previous frames =
    tallyIn (movedOff true) previous frames + tallyIn (movedOff false) previous frames := by
  unfold flapsIn
  induction frames generalizing previous with
  | nil => rfl
  | cons frame frames ih =>
    rw [tallyIn, tallyIn, tallyIn, ih, flapsOf_eq]
    omega

theorem movedOff_le (live : Bool) (previous : Choices) (frame : Frame) :
    movedOff live previous frame ≤ frame.choices.length := List.countP_le_length

/-- Where all classes are given the same, and were before, a move is off what all of them held. -/
theorem held_of_moved {classes : List (String × TrafficClass)} {held given : Option String}
    (hgiven : frame.choices = classes.map fun c => (c.1, given))
    (hheld : previous = [] ∨ previous = classes.map fun c => (c.1, held))
    (h : 0 < movedOff live previous frame) : held ≠ given ∧ frame.live held = live := by
  obtain ⟨⟨classId, linkId⟩, hchoice, hmoved⟩ := List.countP_pos_iff.mp h
  obtain ⟨before, hbefore, hmoved⟩ := (Option.any_eq_true _ _).mp hmoved
  obtain ⟨hother, hlive⟩ := of_decide_eq_true hmoved
  have hgave : linkId = given := by
    rw [hgiven] at hchoice
    obtain ⟨c, -, hpair⟩ := List.mem_map.mp hchoice
    exact (Prod.mk.inj hpair).2.symm
  have hhad : before = held := by
    rcases hheld with rfl | rfl
    · cases hbefore
    · obtain ⟨earlier, later, hsplit, -⟩ := List.lookup_eq_some_iff.mp hbefore
      have hmem : (classId, before) ∈ classes.map fun c => (c.1, held) := by
        rw [hsplit]
        simp
      obtain ⟨c, -, hpair⟩ := List.mem_map.mp hmem
      exact (Prod.mk.inj hpair).2.symm
  subst hgave hhad
  exact ⟨hother, hlive⟩

end Moves

/-! ## Paying for moves -/

section Runs
variable {rd : ℚ → Double} {ρ : Type} {generator : Random ρ} {scenario : Scenario} {d : ℚ}
  {step : Nat}

/-- What was moved off live links is paid for by the seconds gone by when the link was taken that is
held now. -/
structure Paid (scenario : Scenario) (d : ℚ) (step : Nat) (loop : Loop ρ Hysteresis) : Prop where
  sensed : loop.world.scene.fleet.Sensed
  previous : loop.previous = [] ∨
    loop.previous = scenario.classes.items.map fun c => (c.1, loop.selector.current)
  paid : ∃ second : Int, second ≤ scenario.atS step ∧
    (∀ linkId, loop.selector.current = some linkId → ∃ since, loop.selector.since = some since ∧
      since.us = T0.us + second * 1000000) ∧
    (tallyIn (movedOff true) [] loop.result.frames : ℚ) * d ≤ scenario.classes.items.length * second

/-- A link that is held, is up and is given up was held for the dwell time. -/
theorem dwell_of_left {s : Hysteresis} {ctx : SelectorContext} {linkId : String}
    (hlink : s.current = some linkId) (hup : observedUp ctx.evidence linkId = true)
    (hleft : (Hysteresis.next (.fin d) ctx s).current ≠ some linkId) {since : DateTime}
    (hsince : s.since = some since) {held : Int}
    (hheld : ctx.now.us - since.us = held * 1000000) : d ≤ held := by
  rcases Hysteresis.next_cases (.fin d) ctx s with ⟨hkept, -⟩ | ⟨-, hwhy⟩
  · rw [hkept] at hleft
    exact absurd hlink hleft
  · rcases hwhy linkId hlink with hdown | ⟨-, hlong⟩
    · rw [hup] at hdown
      cases hdown
    · rw [Hysteresis.elapsed, hsince] at hlong
      dsimp only at hlong
      rw [Double.le_of_rank rfl rfl, DateTime.totalSeconds_of_whole hheld] at hlong
      exact_mod_cast of_decide_eq_true hlong

/-- Moves that follow a dwell time are paid for by it. -/
theorem pays (hd : 0 ≤ d) {tally moved classes : Nat} {second now : Int}
    (hpaid : (tally : ℚ) * d ≤ classes * second) (hsecond : second ≤ now) (hmoved : moved ≤ classes)
    (hdwell : 0 < moved → d ≤ (now - second : Int)) :
    ((tally + moved : Nat) : ℚ) * d ≤ classes * now := by
  have hrest : (0 : ℚ) ≤ (now - second : Int) := Int.cast_nonneg (sub_nonneg.mpr hsecond)
  have hmove : (moved : ℚ) * d ≤ classes * (now - second : Int) := by
    rcases Nat.eq_zero_or_pos moved with rfl | hpos
    · rw [Nat.cast_zero, zero_mul]
      exact mul_nonneg (Nat.cast_nonneg classes) hrest
    · exact mul_le_mul (Nat.cast_le.mpr hmoved) (hdwell hpos) hd (Nat.cast_nonneg classes)
  calc ((tally + moved : Nat) : ℚ) * d = tally * d + moved * d := by push_cast; ring
    _ ≤ classes * second + classes * (now - second : Int) := add_le_add hpaid hmove
    _ = classes * now := by push_cast; ring

theorem start_paid {seed : Int} (hsensed : scenario.fleet.Sensed) :
    Paid scenario d 0 (Loop.start generator scenario seed {}) := by
  refine ⟨hsensed, .inl rfl, 0, ?_, nofun, ?_⟩
  · rw [Scenario.atS, Nat.cast_zero, zero_mul]
  · simp [Loop.start, tallyIn]

theorem look_sensed (hscenario : scenario.Sensed) {world world' : World ρ} {ctx : SelectorContext}
    (hsensed : world.scene.fleet.Sensed)
    (h : world.look rd generator scenario step = .ok (ctx, world')) :
    world'.scene.fleet.Sensed :=
  happenAll_sensed (fun _ hentry => hscenario.events _ (List.fst_mem_of_mem_zipIdx hentry)) hsensed
    (look_ok h).1

/-- What a step moves off live links is paid for by the clock. -/
theorem step_paid (hd : 0 ≤ d) (hforward : 0 ≤ scenario.stepS) (hscenario : scenario.Sensed)
    {loop loop' : Loop ρ Hysteresis} (hkeyed : loop.world.scene.fleet.Keyed)
    (hframed : Framed scenario step loop) (hloop : Paid scenario d step loop)
    (h : loop.step rd generator scenario (hysteresis (.fin d)) step = .ok loop') :
    Paid scenario d (step + 1) loop' := by
  obtain ⟨ctx, world, choices, state, found, fleet, result, hlook, hcall, -, hcarry, rfl⟩ :=
    step_eq_ok h
  obtain ⟨hup, hresult⟩ := carryAll_tallies hcarry
  obtain ⟨-, hreported, -, hclasses⟩ := look_ok hlook
  have hsensed := look_sensed hscenario hloop.sensed hlook
  have hkeyed' := keyed_of_identities (look_identities hlook) hkeyed
  have hstate : Hysteresis.next (.fin d) ctx loop.selector = state := congrArg Prod.snd hcall
  have hchoices : choices = scenario.classes.items.map fun c => (c.1, state.current) := by
    rw [← hclasses, ← hstate]
    exact (Except.ok.inj (congrArg Prod.fst hcall)).symm
  obtain ⟨second, hsecond, hheld, hpaid⟩ := hloop.paid
  have hlater := atS_le_succ hforward step
  let frame : Frame := ⟨scenario.atS step, choices, fleet.upStates, world.scene.authorityReachable⟩
  have hframes : tallyIn (movedOff true) [] (result.frames ++ [frame]) =
      tallyIn (movedOff true) [] loop.result.frames + movedOff true loop.previous frame := by
    rw [tallyIn_concat, hframed.previous, hresult]
  have hleft (hmoved : 0 < movedOff true loop.previous frame) :
      d ≤ (scenario.atS step - second : Int) ∧ loop.selector.current ≠ state.current := by
    obtain ⟨hother, hlive⟩ := held_of_moved hchoices hloop.previous hmoved
    refine ⟨?_, hother⟩
    obtain ⟨linkId, hlink, hstatus⟩ := (Option.any_eq_true _ _).mp hlive
    obtain ⟨since, hsince, hus⟩ := hheld linkId hlink
    have hobserved : observedUp ctx.evidence linkId = true :=
      observedUp_of_up hkeyed' hsensed hreported (hup ▸ of_decide_eq_true hstatus)
    refine dwell_of_left hlink hobserved ?_ hsince ?_
    · rw [hstate, ← hlink]
      exact hother.symm
    · rw [look_now hlook, hus]
      ring
  refine ⟨?_, .inr hchoices, ?_⟩
  · rw [← sensed_idle]
    show fleet.idle.Sensed
    rw [carryAll_idle hcarry, sensed_idle]
    exact hsensed
  · rcases Hysteresis.next_cases (.fin d) ctx loop.selector with ⟨hkept, -⟩ | ⟨hset, -⟩
    · rw [hstate] at hkept
      subst hkept
      refine ⟨second, hsecond.trans hlater, hheld, ?_⟩
      have hstay : movedOff true loop.previous frame = 0 :=
        Nat.eq_zero_of_not_pos fun hmoved => (hleft hmoved).2 rfl
      dsimp only
      rw [hframes, hstay, add_zero]
      exact hpaid
    · rw [hstate] at hset
      refine ⟨scenario.atS step, hlater, ?_, ?_⟩
      · intro linkId _
        exact ⟨ctx.now, by rw [hset], look_now hlook⟩
      · dsimp only
        rw [hframes]
        refine pays hd hpaid hsecond ?_ fun hmoved => (hleft hmoved).1
        have hcount := movedOff_le true loop.previous frame
        rwa [show frame.choices = _ from hchoices, List.length_map] at hcount

theorem after_paid (hd : 0 ≤ d) (hforward : 0 ≤ scenario.stepS) (hscenario : scenario.Sensed)
    (hkeyed : scenario.fleet.Keyed) {seed : Int} {n : Nat} {loop : Loop ρ Hysteresis}
    (h : Loop.after rd generator scenario (hysteresis (.fin d)) (.start generator scenario seed {}) n =
      .ok loop) : Paid scenario d n loop := by
  induction n generalizing loop with
  | zero =>
    cases h
    exact start_paid hscenario.fleet
  | succ n ih =>
    obtain ⟨before, hbefore, hstep⟩ := bind_eq_ok_iff.mp h
    exact step_paid hd hforward hscenario
      (keyed_of_identities (after_identities hbefore) hkeyed) (after_framed hbefore) (ih hbefore) hstep

/-- Flaps of the hysteresis selector are off links that were not up, or they take a dwell time each:
with working sensors no class is moved off live links more often than the dwell time fits into the
run. -/
theorem run_damped (hd : 0 ≤ d) (hforward : 0 ≤ scenario.stepS) (hscenario : scenario.Sensed)
    (hkeyed : scenario.fleet.Keyed) {s : Hysteresis} {seed : Int} {result : RunResult}
    (h : run rd generator scenario (hysteresis (.fin d)) s seed = .ok result) :
    result.flaps = tallyIn (movedOff true) [] result.frames +
        tallyIn (movedOff false) [] result.frames ∧
      (tallyIn (movedOff true) [] result.frames : ℚ) * d ≤
        scenario.classes.items.length * (result.steps * scenario.stepS : Int) := by
  obtain ⟨start, steps, loop, hreset, -, hloop, rfl⟩ := after_of_run h
  obtain rfl : start = {} := (Except.ok.inj hreset).symm
  have hframed := after_framed hloop
  obtain ⟨second, hsecond, -, hpaid⟩ := (after_paid hd hforward hscenario hkeyed hloop).paid
  refine ⟨by rw [hframed.flaps, flapsIn_eq], hpaid.trans ?_⟩
  rw [hframed.steps]
  exact mul_le_mul_of_nonneg_left (Int.cast_le.mpr hsecond) (Nat.cast_nonneg _)

end Runs

/-- No sensor fails in the shipped scenarios. -/
theorem Scenarios.sensed_shipped {scenario : NamedScenario} (h : scenario ∈ allScenarios) :
    scenario.toScenario.Sensed := by
  have hfleet (quotaGb : Double) : (fleet quotaGb).Sensed := by
    intro item hitem
    rw [fleet_items] at hitem
    simp only [List.mem_cons, List.not_mem_nil, or_false] at hitem
    rcases hitem with rfl | rfl | rfl | rfl <;> rfl
  simp only [allScenarios, List.mem_cons, List.not_mem_nil, or_false] at h
  rcases h with rfl | rfl | rfl | rfl | rfl
  · exact ⟨hfleet _, by decide⟩
  · exact ⟨hfleet _, by decide⟩
  · exact ⟨hfleet _, by decide⟩
  · refine ⟨hfleet _, ?_⟩
    intro event hevent
    rcases flappy_kind hevent with hkind | hkind <;> rw [hkind] <;> decide
  · exact ⟨hfleet _, by decide⟩

/-- The run whose fog comes and goes. -/
theorem run_damped_sample : ∃ result,
    run .fin Sample.halves Scenarios.flappy.toScenario (hysteresis (.fin 300)) {} 0 = .ok result ∧
    result.flaps = tallyIn (movedOff true) [] result.frames +
      tallyIn (movedOff false) [] result.frames ∧
    (tallyIn (movedOff true) [] result.frames : ℚ) * 300 ≤ 3 * (result.steps * 30 : Int) := by
  have hshipped : Scenarios.flappy ∈ Scenarios.allScenarios := by simp [Scenarios.allScenarios]
  have hsound := Scenarios.sound_shipped hshipped
  obtain ⟨result, hrun⟩ := run_completes noOverflow_exact Sample.finite_halves hsound
    (serves_hysteresis _ (.fin 300)) {} 0
  have hclasses : Scenarios.flappy.toScenario.classes.items.length = 3 := by decide
  have hdamped := run_damped (d := 300) (by norm_num) (by decide)
    (Scenarios.sensed_shipped hshipped) hsound.keyed hrun
  rw [hclasses] at hdamped
  exact ⟨result, hrun, hdamped⟩

end Pilotfish
