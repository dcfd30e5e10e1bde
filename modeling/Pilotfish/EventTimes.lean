import Pilotfish.Simulation

/-!
# When events are applied

An event names the second it happens at. The loop applies it in the step of exactly that second, so
an event between two steps, or before the first, is never applied.

Results:
1. `mem_due`: what is applied is what is listed for the second of a step.
2. `applied_of_loop`: no selector changes what is applied.
3. `applied_in_time_iff`: every event that is reached is applied once, in time and in order, if and
   only if all of them are listed for the second of a step.
-/

namespace Pilotfish
open Python

namespace Scenario
variable (scenario : Scenario)

/-- Whether some step is not before an event. -/
def Reaches (steps : Nat) (event : Event) : Prop :=
  ∃ step < steps, event.atS ≤ scenario.atS step

/-- The first step that is not before a second. -/
structure FirstStep (second : Int) (step : Nat) : Prop where
  reaches : second ≤ scenario.atS step
  first : ∀ earlier < step, scenario.atS earlier < second

/-- Every event that is reached is applied once, in the first step that is not before it; within a
step events are applied in the order of their times, and then of the listing. -/
structure AppliedInTime (steps : Nat) (applied : List (Nat × Nat)) : Prop where
  once : ∀ place event, scenario.events[place]? = some event → scenario.Reaches steps event →
    ∃ step, scenario.FirstStep event.atS step ∧ applied.filter (·.2 = place) = [(step, place)]
  order : applied.Pairwise fun a b => a.1 = b.1 →
    ∀ event event', scenario.events[a.2]? = some event → scenario.events[b.2]? = some event' →
      event.atS < event'.atS ∨ event.atS = event'.atS ∧ a.2 < b.2

/-! ## What is due -/

/-- The events of the second of a step, by their places in the listing. -/
def dueIn (step : Nat) : List (Nat × Nat) :=
  (scenario.events.zipIdx.filter (·.1.atS = scenario.atS step)).map fun entry => (step, entry.2)

def due (steps : Nat) : List (Nat × Nat) := (List.range steps).flatMap scenario.dueIn

variable {scenario}

theorem mem_dueIn {step : Nat} {entry : Nat × Nat} :
    entry ∈ scenario.dueIn step ↔ entry.1 = step ∧
      ∃ event, scenario.events[entry.2]? = some event ∧ event.atS = scenario.atS step := by
  obtain ⟨step', place⟩ := entry
  simp only [dueIn, List.mem_map, List.mem_filter, decide_eq_true_eq, Prod.mk.injEq]
  constructor
  · rintro ⟨⟨event, place'⟩, ⟨hlisted, htime⟩, hstep, rfl⟩
    exact ⟨hstep.symm, event, List.mk_mem_zipIdx_iff_getElem?.mp hlisted, htime⟩
  · rintro ⟨hstep, event, hlisted, htime⟩
    exact ⟨(event, place), ⟨List.mk_mem_zipIdx_iff_getElem?.mpr hlisted, htime⟩, hstep.symm, rfl⟩

theorem mem_due {steps step place : Nat} :
    (step, place) ∈ scenario.due steps ↔ step < steps ∧
      ∃ event, scenario.events[place]? = some event ∧ event.atS = scenario.atS step := by
  simp only [due, List.mem_flatMap, List.mem_range, mem_dueIn]
  constructor
  · rintro ⟨_, hlt, rfl, hevent⟩
    exact ⟨hlt, hevent⟩
  · rintro ⟨hlt, hevent⟩
    exact ⟨step, hlt, rfl, hevent⟩

theorem dueIn_pairwise (step : Nat) : (scenario.dueIn step).Pairwise fun a b => a.2 < b.2 := by
  have hplaces : (scenario.events.zipIdx.map Prod.snd).Pairwise (· < ·) := by
    rw [List.zipIdx_map_snd]
    exact List.pairwise_lt_range'
  have hlisted : scenario.events.zipIdx.Pairwise fun a b => a.2 < b.2 :=
    List.pairwise_map.mp hplaces
  exact List.pairwise_map.mpr (hlisted.sublist List.filter_sublist)

/-- By step, and within a step by place. -/
theorem due_pairwise (steps : Nat) :
    (scenario.due steps).Pairwise fun a b => a.1 < b.1 ∨ a.1 = b.1 ∧ a.2 < b.2 := by
  unfold due
  rw [List.pairwise_flatMap]
  constructor
  · intro step _
    refine (dueIn_pairwise step).imp_of_mem ?_
    intro a b ha hb hlt
    exact .inr ⟨(mem_dueIn.mp ha).1.trans (mem_dueIn.mp hb).1.symm, hlt⟩
  · refine List.pairwise_lt_range.imp ?_
    intro step step' hlt a ha b hb
    rw [(mem_dueIn.mp ha).1, (mem_dueIn.mp hb).1]
    exact .inl hlt

theorem due_nodup (steps : Nat) : (scenario.due steps).Nodup := by
  refine (due_pairwise steps).imp ?_
  rintro a _ hlt rfl
  omega

/-! ## In time -/

section InTime
variable {steps : Nat}

theorem atS_lt_iff (hstep : 0 < scenario.stepS) {a b : Nat} :
    scenario.atS a < scenario.atS b ↔ a < b := by
  unfold atS
  rw [Int.mul_lt_mul_right hstep, Int.ofNat_lt]

/-- Within a step everything is of the same second, so the listing decides. -/
theorem due_order (steps : Nat) :
    (scenario.due steps).Pairwise fun a b => a.1 = b.1 →
      ∀ event event', scenario.events[a.2]? = some event → scenario.events[b.2]? = some event' →
        event.atS < event'.atS ∨ event.atS = event'.atS ∧ a.2 < b.2 := by
  refine (due_pairwise steps).imp_of_mem ?_
  rintro ⟨step, place⟩ ⟨step', place'⟩ ha hb hlt rfl event event' hevent hevent'
  obtain ⟨-, e, he, htime⟩ := mem_due.mp ha
  obtain ⟨-, e', he', htime'⟩ := mem_due.mp hb
  obtain rfl : e = event := Option.some.inj (he.symm.trans hevent)
  obtain rfl : e' = event' := Option.some.inj (he'.symm.trans hevent')
  refine .inr ⟨htime.trans htime'.symm, ?_⟩
  rcases hlt with hlt | ⟨-, hlt⟩
  · exact absurd hlt (lt_irrefl _)
  · exact hlt

/-- An event of the second of a step is applied in that step, and in no other. -/
theorem due_once (hstep : 0 < scenario.stepS) {step place : Nat} {event : Event}
    (hlt : step < steps) (hlisted : scenario.events[place]? = some event)
    (htime : event.atS = scenario.atS step) :
    (scenario.due steps).filter (·.2 = place) = [(step, place)] := by
  rw [← List.perm_singleton, List.perm_ext_iff_of_nodup ((due_nodup steps).filter _)
    (List.nodup_singleton _)]
  rintro ⟨step', place'⟩
  simp only [List.mem_filter, decide_eq_true_eq, List.mem_singleton, Prod.mk.injEq]
  constructor
  · rintro ⟨hdue, rfl⟩
    obtain ⟨-, event', hlisted', htime'⟩ := mem_due.mp hdue
    obtain rfl : event = event' := Option.some.inj (hlisted.symm.trans hlisted')
    have hsame : (step' : Int) * scenario.stepS = step * scenario.stepS :=
      htime'.symm.trans htime
    exact ⟨Int.ofNat_inj.mp (mul_right_cancel₀ hstep.ne' hsame), rfl⟩
  · rintro ⟨rfl, rfl⟩
    exact ⟨mem_due.mpr ⟨hlt, event, hlisted, htime⟩, rfl⟩

/-- What is due is in time if and only if it is due in the second of a step. -/
theorem due_in_time_iff (hstep : 0 < scenario.stepS) :
    scenario.AppliedInTime steps (scenario.due steps) ↔
    ∀ event ∈ scenario.events, scenario.Reaches steps event →
      0 ≤ event.atS ∧ scenario.stepS ∣ event.atS := by
  constructor
  · intro h event hevent hreaches
    obtain ⟨place, hlisted⟩ := List.mem_iff_getElem?.mp hevent
    obtain ⟨step, -, hfilter⟩ := h.once place event hlisted hreaches
    have hdue : (step, place) ∈ scenario.due steps :=
      List.mem_of_mem_filter (hfilter ▸ List.mem_singleton_self _)
    obtain ⟨-, event', hlisted', htime⟩ := mem_due.mp hdue
    obtain rfl : event = event' := Option.some.inj (hlisted.symm.trans hlisted')
    rw [htime]
    exact ⟨mul_nonneg (Int.natCast_nonneg step) hstep.le, Dvd.intro_left _ rfl⟩
  · intro h
    refine ⟨?_, due_order steps⟩
    intro place event hlisted hreaches
    obtain ⟨last, hlast, hbefore⟩ := hreaches
    obtain ⟨hnonneg, c, hc⟩ := h event (List.mem_of_getElem? hlisted) ⟨last, hlast, hbefore⟩
    have hcount : 0 ≤ c := by
      by_contra hneg
      have := mul_neg_of_pos_of_neg hstep (not_le.mp hneg)
      omega
    have htime : event.atS = scenario.atS c.toNat := by
      rw [hc, atS, Int.toNat_of_nonneg hcount, mul_comm]
    have hle : c.toNat ≤ last := by
      by_contra hlt
      rw [htime] at hbefore
      exact absurd ((atS_lt_iff hstep).mpr (not_le.mp hlt)) (not_lt.mpr hbefore)
    refine ⟨c.toNat, ⟨htime.le, ?_⟩, due_once hstep (hle.trans_lt hlast) hlisted htime⟩
    intro earlier hearlier
    rw [htime]
    exact (atS_lt_iff hstep).mpr hearlier

end InTime

end Scenario

/-! ## What is applied -/

section Applied
variable {scenario : Scenario}

theorem happenAll_applied {step : Nat} {atS : Int} {events : List (Event × Nat)}
    {scene scene' : Scene} (h : scene.happenAll step atS events = .ok scene') :
    scene'.applied = scene.applied ++ (events.filter (·.1.atS = atS)).map (step, ·.2) := by
  induction events generalizing scene with
  | nil =>
    cases h
    exact (List.append_nil _).symm
  | cons entry events ih =>
    obtain ⟨event, place⟩ := entry
    unfold Scene.happenAll at h
    split_ifs at h with hdue
    · obtain ⟨⟨fleet, authority⟩, -, h⟩ := bind_eq_ok_iff.mp h
      rw [ih h, List.filter_cons_of_pos (by simpa using hdue), List.append_assoc]
      rfl
    · rw [ih h, List.filter_cons_of_neg (by simpa using hdue)]

theorem sceneAt_applied {n : Nat} {scene : Scene} (h : scenario.sceneAt n = .ok scene) :
    scene.applied = scenario.due n := by
  induction n generalizing scene with
  | zero =>
    cases h
    rfl
  | succ n ih =>
    obtain ⟨before, hbefore, hhappen⟩ := bind_eq_ok_iff.mp h
    rw [happenAll_applied hhappen, ih hbefore, Scenario.due, Scenario.due, List.range_succ,
      List.flatMap_append, List.flatMap_singleton]
    rfl

end Applied

section Runs
variable {rd : ℚ → Double} {ρ σ : Type} {generator : Random ρ} {scenario : Scenario}
  {selector : Selector σ} {state : σ} {seed : Int} {n : Nat} {loop : Loop ρ σ}

theorem applied_of_loop
    (h : Loop.after rd generator scenario selector (.start generator scenario seed state) n =
      .ok loop) : loop.world.scene.applied = scenario.due n := by
  have happlied : loop.world.scene.idle.applied = scenario.due n :=
    sceneAt_applied (scene_of_loop h)
  exact happlied

theorem applied_in_time_iff (hstep : 0 < scenario.stepS)
    (h : Loop.after rd generator scenario selector (.start generator scenario seed state) n =
      .ok loop) :
    scenario.AppliedInTime n loop.world.scene.applied ↔
    ∀ event ∈ scenario.events, scenario.Reaches n event →
      0 ≤ event.atS ∧ scenario.stepS ∣ event.atS := by
  rw [applied_of_loop h]
  exact Scenario.due_in_time_iff hstep

end Runs

/-- The authority is lost at a given second. -/
def Sample.lostAt (second : Int) : Scenario := scenario [⟨second, .authorityUnreachable, ""⟩]

/-- Lost in the second of the second step. -/
theorem applied_in_time_iff_sample : ∃ loop,
    Loop.after Double.nearest Sample.draws (Sample.lostAt 30) greedy
      (.start Sample.draws (Sample.lostAt 30) 0 ()) 2 = .ok loop ∧
    (Sample.lostAt 30).AppliedInTime 2 loop.world.scene.applied := by
  obtain ⟨loop, hloop⟩ := isOk_iff.mp (show (Loop.after Double.nearest Sample.draws
    (Sample.lostAt 30) greedy (.start Sample.draws (Sample.lostAt 30) 0 ()) 2).isOk = true by
      decide +kernel)
  refine ⟨loop, hloop, (applied_in_time_iff (by decide) hloop).mpr ?_⟩
  intro event hevent _
  obtain rfl := List.mem_singleton.mp hevent
  exact ⟨by decide, by decide⟩

/-- Lost between the first step and the second, and reachable to the end of the run. -/
theorem loss_is_lost : ∃ loop,
    Loop.after Double.nearest Sample.draws (Sample.lostAt 15) greedy
      (.start Sample.draws (Sample.lostAt 15) 0 ()) 2 = .ok loop ∧
    loop.world.scene.authorityReachable = true ∧
    ¬(Sample.lostAt 15).AppliedInTime 2 loop.world.scene.applied := by
  obtain ⟨loop, hloop⟩ := isOk_iff.mp (show (Loop.after Double.nearest Sample.draws
    (Sample.lostAt 15) greedy (.start Sample.draws (Sample.lostAt 15) 0 ()) 2).isOk = true by
      decide +kernel)
  have hreachable : (Loop.after Double.nearest Sample.draws (Sample.lostAt 15) greedy
      (.start Sample.draws (Sample.lostAt 15) 0 ()) 2).toOption.any
        (·.world.scene.authorityReachable) = true := by
    decide +kernel
  rw [hloop] at hreachable
  refine ⟨loop, hloop, hreachable, ?_⟩
  intro hin
  obtain ⟨step, -, hfilter⟩ := hin.once 0 _ rfl ⟨1, by decide, by decide⟩
  rw [applied_of_loop hloop, show (Sample.lostAt 15).due 2 = [] by decide] at hfilter
  cases hfilter

end Pilotfish
