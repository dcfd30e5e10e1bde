import Pilotfish.Completion

/-!
# The time a governed run counts as degraded

The governed selector is degraded when what its authority last sent it has ended. The frames of a
run say when the authority could be reached, so the time that a run counts as degraded can be taken
from them.

Results:
1. `call_inStep`: a call that returned kept both sides in step.
2. `run_degraded`: the degraded time of a run is that of the frames that come the validity of a
   bundle, or more, after the last frame in contact.
-/

namespace Pilotfish
open Python

/-! ## Silence -/

/-- The second of the last contact once a step was taken. -/
def Frame.contact (last : Option Int) (frame : Frame) : Option Int :=
  if frame.authorityReachable then some frame.atS else last

def contactIn (frames : List Frame) : Option Int := frames.foldl Frame.contact none

/-- What was published at the last contact has ended. -/
def ended (validity : Int) (last : Option Int) (second : Int) : Bool :=
  last.all fun contact => contact + validity ≤ second

/-- The steps among the frames that found what was published last ended. -/
def endedIn (validity : Int) : Option Int → List Frame → Nat
  | _, [] => 0
  | last, frame :: frames =>
      (if ended validity (frame.contact last) frame.atS then 1 else 0) +
        endedIn validity (frame.contact last) frames

/-- What a frame says of the contact with the authority. -/
def Frame.clock (frame : Frame) : Int × Bool := (frame.atS, frame.authorityReachable)

/-- Nothing else of the frames counts. -/
theorem endedIn_congr {validity : Int} {frames frames' : List Frame}
    (h : frames.map Frame.clock = frames'.map Frame.clock) (last : Option Int) :
    endedIn validity last frames = endedIn validity last frames' := by
  induction frames generalizing frames' last with
  | nil => rw [List.map_eq_nil_iff.mp h.symm]
  | cons frame frames ih =>
    obtain ⟨frame', rest, rfl, hframe, hrest⟩ := List.map_eq_cons_iff.mp h.symm
    obtain ⟨hatS, hreachable⟩ := Prod.mk.inj hframe
    have hcontact : frame'.contact last = frame.contact last := by
      rw [Frame.contact, Frame.contact, hatS, hreachable]
    rw [endedIn, endedIn, hcontact, hatS, ih hrest.symm _]

theorem contactIn_concat (frames : List Frame) (frame : Frame) :
    contactIn (frames ++ [frame]) = frame.contact (contactIn frames) := by
  rw [contactIn, List.foldl_append]
  rfl

theorem endedIn_concat (validity : Int) (last : Option Int) (frames : List Frame) (frame : Frame) :
    endedIn validity last (frames ++ [frame]) = endedIn validity last frames +
      if ended validity (frame.contact (frames.foldl Frame.contact last)) frame.atS then 1 else 0 := by
  induction frames generalizing last with
  | nil =>
    rw [List.nil_append, endedIn, endedIn, endedIn, zero_add, add_zero]
    rfl
  | cons first frames ih =>
    rw [List.cons_append, endedIn, endedIn, ih, add_assoc]
    rfl

/-- The instant of the last contact, and the second of it. -/
def SameContact (last : Option DateTime) (second : Option Int) : Prop :=
  last.map (·.us) = second.map fun s => T0.us + s * 1000000

theorem inForce_iff {validity : Int} {last : Option DateTime} {second : Option Int}
    (hlast : SameContact last second) {now : DateTime} {atS : Int}
    (hnow : now.us = T0.us + atS * 1000000) :
    InForce validity last now ↔ ended validity second atS = false := by
  unfold InForce ended
  cases last with
  | none =>
    cases second with
    | none => simp
    | some s => cases hlast
  | some t =>
    cases second with
    | none => cases hlast
    | some s =>
      have ht : t.us = T0.us + s * 1000000 := Option.some.inj hlast
      simp only [Option.some.injEq, exists_eq_left', Option.all_some, decide_eq_false_iff_not,
        not_le]
      omega

/-! ## Calls that returned -/

section Calls
variable {rt : Runtime} (laws : rt.Lawful) {authorityKey : rt.PrivateKey}
  {bundle floor : PolicyBundle} {validity : Int} {last : Option DateTime} {published : Nat}
  {g g' : Governed rt} {ctx : SelectorContext}

/-- What was published ended in the calendar and had a number that fits the nonce. -/
theorem reissue_bounds (h : InStep authorityKey bundle floor validity last published g)
    {now : DateTime} {envelopeBytes : Bytes}
    (hreissue : ({ g with epoch := g.epoch + 1 } : Governed rt).reissue now = .ok envelopeBytes) :
    (∃ until', now.add (validity * 1000000) = .ok until') ∧ published + 1 < 256 ^ 16 := by
  obtain ⟨until', huntil, hreissue⟩ := bind_eq_ok_iff.mp hreissue
  obtain ⟨nonce, hnonce, -⟩ := bind_eq_ok_iff.mp hreissue
  rw [h.validityS, DateTime.floatUs_intCast] at huntil
  rw [h.epoch, toBytes16] at hnonce
  split_ifs at hnonce with hfits
  exact ⟨⟨until', huntil⟩, hfits⟩

include laws in
theorem call_inStep {undeclared : Undeclared} (hbundle : Reissuable bundle validity)
    (h : InStep authorityKey bundle floor validity last published g)
    (hwhole : ∃ n, ctx.now.us = n * 1000000) {choices : Choices}
    (hcall : Governed.call undeclared ctx g = (.ok choices, g')) :
    (∃ published', InStep authorityKey bundle floor validity (contactAfter last ctx) published' g') ∧
      (g'.lastDegraded = false ↔ InForce validity (contactAfter last ctx) ctx.now) := by
  obtain ⟨d, g₁, hdecision, hrest⟩ := Effect.bind_eq_ok_iff.mp hcall
  cases hrest
  obtain ⟨_, g₂, hcontact, hturn⟩ := Effect.bind_eq_ok_iff.mp hdecision
  obtain ⟨published', h₂⟩ : ∃ published', InStep authorityKey bundle floor validity
      (contactAfter last ctx) published' g₂ := by
    by_cases hreachable : ctx.authorityReachable = true
    · obtain ⟨n, hnow⟩ := hwhole
      obtain ⟨rules, hrules⟩ := hbundle.directives
      have hpublish := hcontact
      unfold Governed.contact at hpublish
      rw [if_pos hreachable] at hpublish
      obtain ⟨envelopeBytes, g₃, hpublish, -⟩ := Effect.bind_eq_ok_iff.mp hpublish
      obtain ⟨⟨until', huntil⟩, hcount⟩ := reissue_bounds h (congrArg Prod.fst hpublish)
      obtain ⟨g₄, hcontact', h₄⟩ := contact_returns laws h hbundle.issuer hbundle.positive hrules
        hreachable hnow huntil hcount
      obtain rfl : g₄ = g₂ := congrArg Prod.snd (hcontact'.symm.trans hcontact)
      exact ⟨_, by rwa [contactAfter, if_pos hreachable]⟩
    · unfold Governed.contact at hcontact
      rw [if_neg hreachable] at hcontact
      obtain rfl : g = g₂ := congrArg Prod.snd hcontact
      exact ⟨published, by rwa [contactAfter, if_neg hreachable]⟩
  have hkept := turn_keeps laws ctx undeclared h₂
  rw [hturn] at hkept
  refine ⟨⟨published', { hkept with }⟩, ?_⟩
  obtain ⟨hforce, hfloor⟩ := current_inStep h₂ ctx.now
  have hdegraded {b : PolicyBundle} {degraded : Bool}
      (hcurrent : g₂.agent.store.current ctx.now = (b.toWire, degraded)) : d.degraded = degraded := by
    obtain ⟨d', siteId, hdecision', hdecide, -⟩ :=
      Governed.call_ok hcall (by rw [hcontact]; exact hcurrent)
    rw [hdecision] at hdecision'
    obtain rfl := Except.ok.inj hdecision'
    exact (decide_ok hdecide).2.2.2.2.2.1
  show d.degraded = false ↔ _
  by_cases hin : InForce validity (contactAfter last ctx) ctx.now
  · obtain ⟨c, hcurrent, -, -⟩ := hforce hin
    exact iff_of_true (hdegraded hcurrent) hin
  · refine iff_of_false ?_ hin
    rw [hdegraded (hfloor hin)]
    decide

end Calls

/-! ## Runs -/

section Runs
variable {rt : Runtime} (laws : rt.Lawful) {rd : ℚ → Double} {ρ : Type} {generator : Random ρ}
  {scenario : Scenario} {authorityKey siteKey : rt.PrivateKey} {siteId : String} {validity : Int}
  {undeclared : Undeclared}

theorem look_reachable {step : Nat} {world world' : World ρ} {ctx : SelectorContext}
    (h : world.look rd generator scenario step = .ok (ctx, world')) :
    ctx.authorityReachable = world'.scene.authorityReachable := by
  obtain ⟨_, -, h⟩ := bind_eq_ok_iff.mp h
  obtain ⟨_, -, h⟩ := bind_eq_ok_iff.mp h
  obtain ⟨_, -, h⟩ := bind_eq_ok_iff.mp h
  obtain ⟨_, -, h⟩ := bind_eq_ok_iff.mp h
  cases h
  rfl

/-- The selector is in step with the last contact on record, and so is the degraded time. -/
structure Clocked (scenario : Scenario) (authorityKey : rt.PrivateKey) (floor : PolicyBundle)
    (validity : Int) (loop : Loop ρ (Governed rt)) : Prop where
  inStep : ∃ last published, SameContact last (contactIn loop.result.frames) ∧
    InStep authorityKey scenario.bundle floor validity last published loop.selector
  degradedS : loop.result.degradedS = endedIn validity none loop.result.frames * scenario.stepS

include laws

theorem step_clocked (hbundle : Reissuable scenario.bundle validity) {floor : PolicyBundle}
    {step : Nat} {before after : Loop ρ (Governed rt)}
    (hbefore : Clocked scenario authorityKey floor validity before)
    (h : before.step rd generator scenario
      (governed authorityKey siteKey scenario.bundle siteId undeclared) step = .ok after) :
    Clocked scenario authorityKey floor validity after := by
  obtain ⟨ctx, world, choices, state, found, fleet, result, hlook, hcall, -, hcarry, rfl⟩ :=
    step_eq_ok h
  obtain ⟨last, published, hlast, hinStep⟩ := hbefore.inStep
  have hframes : result.frames = before.result.frames := by rw [(carryAll_tallies hcarry).2]
  have hdegraded : result.degradedS = before.result.degradedS := by
    rw [(carryAll_tallies hcarry).2]
  have hnow := look_now hlook
  have hwhole : ∃ n, ctx.now.us = n * 1000000 :=
    ⟨1787918400 + scenario.atS step, by rw [hnow, add_mul]; rfl⟩
  obtain ⟨⟨published', hinStep'⟩, hforce⟩ := call_inStep laws hbundle hinStep hwhole hcall
  let frame : Frame := ⟨scenario.atS step, choices, fleet.upStates, world.scene.authorityReachable⟩
  have hcontact : SameContact (contactAfter last ctx) (frame.contact (contactIn result.frames)) := by
    have hframe : frame.authorityReachable = world.scene.authorityReachable := rfl
    rw [contactAfter, look_reachable hlook, Frame.contact, hframe, hframes]
    cases hreachable : world.scene.authorityReachable with
    | false => exact hlast
    | true => exact congrArg some hnow
  refine ⟨⟨contactAfter last ctx, published', ?_, hinStep'⟩, ?_⟩
  · rw [contactIn_concat]
    exact hcontact
  · have hended := hforce.trans (inForce_iff hcontact hnow)
    show result.degradedS + (if state.lastDegraded then scenario.stepS else 0) =
      (endedIn validity none (result.frames ++ [frame]) : Nat) * scenario.stepS
    rw [endedIn_concat, ← contactIn, hframes, hdegraded, hbefore.degradedS]
    rw [hframes] at hended
    cases hlate : ended validity (frame.contact (contactIn before.result.frames)) frame.atS with
    | false =>
      rw [hended.mpr hlate]
      simp
    | true =>
      have hflag : state.lastDegraded = true := by
        rw [← Bool.not_eq_false]
        intro hnot
        rw [hended.mp hnot] at hlate
        cases hlate
      rw [hflag]
      simp
      ring

theorem after_clocked (hbundle : Reissuable scenario.bundle validity) {start : Governed rt}
    (hstart : Governed.reset authorityKey siteKey scenario.bundle siteId = .ok start) {seed : Int} :
    ∃ floor, ∀ n loop, Loop.after rd generator scenario
      (governed authorityKey siteKey scenario.bundle siteId undeclared)
      (.start generator scenario seed start) n = .ok loop →
      Clocked scenario authorityKey floor validity loop := by
  obtain ⟨floor, -, -, hinit⟩ := inStep_reset laws hbundle.whole hstart
  refine ⟨floor, ?_⟩
  intro n
  induction n with
  | zero =>
    intro loop h
    cases h
    exact ⟨⟨none, 0, rfl, hinit⟩, by simp [Loop.start, endedIn]⟩
  | succ n ih =>
    intro loop h
    obtain ⟨before, hbefore, hstep⟩ := bind_eq_ok_iff.mp h
    exact step_clocked laws hbundle (ih before hbefore) hstep

/-- What a governed run counts as degraded is the steps that came the validity of the bundle, or
more, after the last step in contact, or before any. -/
theorem run_degraded (hbundle : Reissuable scenario.bundle validity) {s : Governed rt} {seed : Int}
    {result : RunResult} (h : run rd generator scenario
      (governed authorityKey siteKey scenario.bundle siteId undeclared) s seed = .ok result) :
    result.degradedS = endedIn validity none result.frames * scenario.stepS := by
  obtain ⟨start, steps, loop, hstart, -, hloop, rfl⟩ := after_of_run h
  obtain ⟨floor, hclocked⟩ := after_clocked laws hbundle hstart
  exact (hclocked _ loop hloop).degradedS

end Runs

namespace Sample

/-- The authority is out of reach for twice the minute that its bundle is valid. -/
def blackout : Scenario where
  bundle := Scenarios.policy (clock 60) 120
  fleet := Scenarios.fleet (.fin 1000)
  trafficBytesPerS := Scenarios.traffic
  events := [⟨30, .authorityUnreachable, ""⟩, ⟨150, .authorityReachable, ""⟩]
  durationS := 180
  stepS := 30

theorem governable_blackout : blackout.Governable 60 := by
  refine ⟨Scenarios.reissuable_policy _ _ (by decide +kernel) (by decide),
    (by decide : (Scenarios.links.map (·.id)).Nodup), ⟨1787918400, rfl, by decide⟩,
    (by decide : (0 : Int) ≤ 120), ?_⟩
  decide

theorem sound_blackout : blackout.Sound :=
  ⟨Scenarios.keyed_fleet _, Scenarios.sound_fleet rfl, Scenarios.targets_fleet _ (by decide),
    by decide, by decide⟩

/-- A frame of the blackout, as far as it says when the authority was in reach. -/
def blackoutFrame (step : Nat) : Frame := ⟨step * 30, [], [], step = 0 ∨ step = 5⟩

theorem blackout_frames {s : Governed standIn} {result : RunResult} (h : run .fin halves blackout
      (governed signer.key siteKey blackout.bundle "sim-site" undeclared) s 0 = .ok result) :
    result.frames.map Frame.clock = ((List.range 6).map blackoutFrame).map Frame.clock := by
  obtain ⟨state, steps, loop, -, hsteps, hloop, rfl⟩ := after_of_run h
  obtain rfl : 6 = steps := Except.ok.inj hsteps
  have htimes : loop.result.frames.map (·.atS) = (List.range 6).map blackout.atS :=
    (after_framed hloop).times
  have hscenes : ∀ k < 6, (blackout.sceneAt (k + 1)).toOption.map (·.authorityReachable) =
      some (blackoutFrame k).authorityReachable := by decide +kernel
  refine List.ext_getElem? fun k => ?_
  have htime := congrArg (·[k]?) htimes
  simp only [List.getElem?_map] at htime ⊢
  by_cases hk : k < 6
  · rw [List.getElem?_range hk] at htime ⊢
    obtain ⟨frame, hframe, hatS⟩ := Option.map_eq_some_iff.mp htime
    obtain ⟨scene, hscene, -, hreachable⟩ := after_scene hloop hframe
    have hsaid := hscenes k hk
    rw [hscene] at hsaid
    rw [hframe]
    exact congrArg some (Prod.ext hatS (hreachable.trans (Option.some.inj hsaid)))
  · have hnone : (List.range 6)[k]? = none := List.getElem?_eq_none (by simpa using hk)
    rw [hnone] at htime ⊢
    rw [Option.map_eq_none_iff.mp htime]
    rfl

end Sample

/-- Three frames come after the minute that the bundle is valid and before the next contact. -/
theorem run_degraded_sample : ∃ s result, run .fin Sample.halves Sample.blackout
      (governed Sample.signer.key Sample.siteKey Sample.blackout.bundle "sim-site"
        Sample.undeclared) s 0 = .ok result ∧
    result.degradedS = 90 := by
  obtain ⟨s, -⟩ : ∃ s, Governed.reset Sample.signer.key Sample.siteKey Sample.blackout.bundle
      "sim-site" = .ok s ∧ _ := reset_serves lawful_standIn Sample.governable_blackout
  obtain ⟨result, hrun⟩ : ∃ result, run .fin Sample.halves Sample.blackout
      (governed Sample.signer.key Sample.siteKey Sample.blackout.bundle "sim-site"
        Sample.undeclared) s 0 = .ok result :=
    run_completes noOverflow_exact Sample.finite_halves Sample.sound_blackout
      (serves_governed lawful_standIn Sample.sound_blackout.forward
        Sample.sound_blackout.inCalendar Sample.governable_blackout) s 0
  refine ⟨s, result, hrun, ?_⟩
  rw [run_degraded lawful_standIn Sample.governable_blackout.reissuable hrun,
    endedIn_congr (Sample.blackout_frames hrun) none]
  decide

end Pilotfish
