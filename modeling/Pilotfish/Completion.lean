import Pilotfish.Availability
import Pilotfish.FiniteArith
import Pilotfish.Scenarios

/-!
# Runs that come to their end

A run of the loop can raise in many places: a measurement has to be finite, an event has to name a
link of the fleet, a choice has to name a link of the policy, and every instant has to be in the
calendar. A scenario that is sound raises in none of them, whichever of the compared selectors runs.

Results:
1. `fleet_reports_all`: sound models report.
2. `look_returns`, `carryAll_returns`: the two halves of a step return, and leave the fleet sound.
3. `run_completes`: a run of a selector that serves a sound scenario returns.
4. `serves_governed`: the governed selector serves it, as the others do.
-/

namespace Pilotfish
open Python

/-! ## Sound models -/

/-- The numbers of a model are finite, and it is of some kind. -/
def LinkModel.Sound (m : LinkModel) : Prop :=
  match m.kind with
  | .base => False
  | .fiber baseRttMs => baseRttMs.IsFinite
  | .lte quotaGb baseRttMs congestion _ =>
      quotaGb.IsFinite ∧ baseRttMs.IsFinite ∧ congestion.IsFinite
  | .satellite baseRttMs _ quotaGb _ => quotaGb.IsFinite ∧ baseRttMs.IsFinite
  | .fso visibilityM baseRttMs _ => visibilityM.IsFinite ∧ baseRttMs.IsFinite

/-- All models of the fleet are sound. -/
def LinkFleet.Sound (fleet : LinkFleet) : Prop := ∀ item ∈ fleet.models.items, item.2.Sound

section Reporting
variable {rd : ℚ → Double} (hrd : NoOverflow rd) {ρ : Type} {generator : Random ρ}
  (hdraws : ∀ rng, (generator.random rng).1.IsFinite) {m : LinkModel} {t : DateTime}

theorem observation_returns {value : Double} (h : value.IsFinite) (linkId quantity : String)
    (t : DateTime) (source : String) :
    ∃ o, observation linkId quantity value t source = .ok o :=
  ⟨_, observation_eq_ok.mpr ⟨h, rfl⟩⟩

theorem liveness_returns (m : LinkModel) (t : DateTime) : ∃ o, m.liveness t = .ok o :=
  observation_returns (by split_ifs <;> rfl) _ _ _ _

include hrd

/-- How much of an allowance is used can be said, and is a number. -/
theorem quotaUsedPct_returns {quotaGb : Double} (hquota : quotaGb.IsFinite) (bytes : Int) :
    ∃ pct, LinkModel.quotaUsedPct rd quotaGb bytes = .ok pct ∧ pct.IsFinite := by
  unfold LinkModel.quotaUsedPct
  split_ifs with hspent
  · exact ⟨_, rfl, rfl⟩
  · obtain ⟨gb, hgb, hfinite⟩ := trueDiv_returns hrd bytes (n := GB) (by decide)
    obtain ⟨q, rfl⟩ | rfl := hquota.cases
    · have hq : q ≠ 0 := by
        rintro rfl
        exact hspent rfl
      obtain ⟨pct, hpct, hratio⟩ := finite_div hrd (finite_mul hrd (x := .fin 100) rfl hfinite) hq
      refine ⟨_, bind_eq_ok_iff.mpr ⟨gb, hgb, bind_eq_ok_iff.mpr ⟨pct, hpct, rfl⟩⟩, ?_⟩
      unfold Double.min
      split_ifs
      · exact hratio
      · rfl
    · exact absurd rfl hspent

theorem metered_returns {quotaGb rtt : Double} (hquota : quotaGb.IsFinite) (hrtt : rtt.IsFinite)
    (rng : ρ) : ∃ reported, m.metered rd t rng quotaGb rtt = .ok (reported, rng) := by
  obtain ⟨up, hup⟩ := liveness_returns m t
  obtain ⟨latency, hlatency⟩ := observation_returns hrtt m.linkId "rtt_ms" t "agent"
  obtain ⟨pct, hpct, hfinite⟩ := quotaUsedPct_returns hrd hquota m.bytesCarried
  obtain ⟨used, hused⟩ := observation_returns hfinite m.linkId "quota_used_pct" t "operator"
  exact ⟨_, bind_eq_ok_iff.mpr ⟨up, hup, bind_eq_ok_iff.mpr ⟨latency, hlatency,
    bind_eq_ok_iff.mpr ⟨pct, hpct, bind_eq_ok_iff.mpr ⟨used, hused, rfl⟩⟩⟩⟩⟩

include hdraws

theorem observe_returns (hsound : m.Sound) (rng : ρ) :
    ∃ reported rng', m.observe rd generator t rng = .ok (reported, rng') := by
  have hdown (rng : ρ) : ∃ reported rng', (do return ([← m.liveness t], rng)) =
      Except.ok (ε := Exc) (reported, rng') := by
    obtain ⟨up, hup⟩ := liveness_returns m t
    exact ⟨_, _, bind_eq_ok_iff.mpr ⟨up, hup, rfl⟩⟩
  unfold LinkModel.Sound at hsound
  unfold LinkModel.observe
  cases hkind : m.kind with
  | base =>
    rw [hkind] at hsound
    exact hsound.elim
  | fiber baseRttMs =>
    rw [hkind] at hsound
    dsimp only
    split_ifs
    · obtain ⟨up, hup⟩ := liveness_returns m t
      obtain ⟨latency, hlatency⟩ := observation_returns
        (finite_add hrd hsound (finite_uniform hrd hdraws _ _ rng)) m.linkId "rtt_ms" t "agent"
      exact ⟨_, _, bind_eq_ok_iff.mpr ⟨up, hup, bind_eq_ok_iff.mpr ⟨latency, hlatency, rfl⟩⟩⟩
    · exact hdown rng
  | lte quotaGb baseRttMs congestion costPerGbOver =>
    rw [hkind] at hsound
    obtain ⟨hquota, hbase, hcongestion⟩ := hsound
    dsimp only
    split_ifs
    · have hloaded := finite_mul hrd hbase (finite_add hrd (x := .fin 1) rfl hcongestion)
      obtain ⟨reported, hreported⟩ := metered_returns (m := m) (t := t) hrd hquota
        (finite_add hrd hloaded (finite_uniform hrd hdraws _ _ rng))
        (generator.uniform rd (.fin (-5)) (.fin 15) rng).2
      exact ⟨_, _, hreported⟩
    · exact hdown rng
  | satellite baseRttMs obstructed quotaGb costPerGbOver =>
    rw [hkind] at hsound
    obtain ⟨hquota, hbase⟩ := hsound
    dsimp only
    split_ifs
    · have hslow := finite_add hrd hbase (y := .fin 400) rfl
      obtain ⟨reported, hreported⟩ := metered_returns (m := m) (t := t) hrd hquota
        (finite_add hrd hslow (finite_uniform hrd hdraws _ _ rng))
        (generator.uniform rd (.fin (-5)) (.fin 25) rng).2
      exact ⟨_, _, hreported⟩
    · have hplain := finite_add hrd hbase (y := .fin 0) rfl
      obtain ⟨reported, hreported⟩ := metered_returns (m := m) (t := t) hrd hquota
        (finite_add hrd hplain (finite_uniform hrd hdraws _ _ rng))
        (generator.uniform rd (.fin (-5)) (.fin 25) rng).2
      exact ⟨_, _, hreported⟩
    · exact hdown rng
  | fso visibilityM baseRttMs usableVisibilityM =>
    rw [hkind] at hsound
    obtain ⟨hvisibility, hbase⟩ := hsound
    obtain ⟨up, hup⟩ : ∃ up, observation m.linkId "up" (if m.isUp then .fin 1 else .fin 0) t "agent" =
        .ok up := observation_returns (by split_ifs <;> rfl) _ _ _ _
    obtain ⟨visible, hvisible⟩ := observation_returns hvisibility m.linkId "visibility_m" t "model"
    by_cases hlive : m.isUp = true
    · obtain ⟨latency, hlatency⟩ := observation_returns
        (finite_add hrd hbase (finite_uniform hrd hdraws _ _ rng)) m.linkId "rtt_ms" t "agent"
      exact ⟨_, _, bind_eq_ok_iff.mpr ⟨up, hup, bind_eq_ok_iff.mpr ⟨visible, hvisible,
        (if_pos hlive).trans (bind_eq_ok_iff.mpr ⟨latency, hlatency, rfl⟩)⟩⟩⟩
    · exact ⟨_, _, bind_eq_ok_iff.mpr ⟨up, hup, bind_eq_ok_iff.mpr ⟨visible, hvisible,
        if_neg hlive⟩⟩⟩

/-- A sound fleet reports, whatever is drawn. -/
theorem fleet_reports_all {fleet : LinkFleet} (hsound : fleet.Sound) (rng : ρ) :
    ∃ reported rng', fleet.step rd generator t rng = .ok (reported, rng') := by
  have hitems (items : List (String × LinkModel)) (h : ∀ item ∈ items, item.2.Sound) (rng : ρ) :
      ∃ reported rng', LinkFleet.stepItems rd generator t items rng = .ok (reported, rng') := by
    induction items generalizing rng with
    | nil => exact ⟨[], rng, rfl⟩
    | cons item items ih =>
      obtain ⟨first, rng₁, hfirst⟩ : ∃ first rng₁, item.2.step rd generator t rng =
          .ok (first, rng₁) := by
        unfold LinkModel.step
        split_ifs
        · exact ⟨[], rng, rfl⟩
        · exact observe_returns hrd hdraws (h item List.mem_cons_self) rng
      obtain ⟨more, rng₂, hmore⟩ := ih (fun item hitem => h item (List.mem_cons_of_mem _ hitem)) rng₁
      exact ⟨first ++ more, rng₂,
        bind_eq_ok_iff.mpr ⟨_, hfirst, bind_eq_ok_iff.mpr ⟨_, hmore, rfl⟩⟩⟩
  exact hitems _ hsound rng

end Reporting

/-! ## Sound scenarios -/

/-- An event that names a link of the fleet, if it is about one. -/
def Event.Targets (fleet : LinkFleet) (event : Event) : Prop :=
  event.kind = .authorityUnreachable ∨ event.kind = .authorityReachable ∨
    (fleet.models.get? event.target).isSome = true

/-- Sound models under their own ids, events that name them, and steps that end in the calendar. -/
structure Scenario.Sound (scenario : Scenario) : Prop where
  keyed : scenario.fleet.Keyed
  devices : scenario.fleet.Sound
  targets : ∀ event ∈ scenario.events, event.Targets scenario.fleet
  forward : 0 < scenario.stepS
  inCalendar : 1787918400 + scenario.durationS ≤ maxSecond

section Keeping
variable {fleet fleet' : LinkFleet} {scene : Scene}

theorem sound_modify {set : LinkModel → LinkModel} (hset : ∀ m : LinkModel, m.Sound → (set m).Sound)
    (h : fleet.Sound) (target : String) :
    (⟨fleet.models.modify target set⟩ : LinkFleet).Sound := by
  intro item hitem
  obtain ⟨before, hbefore, rfl⟩ := List.mem_map.mp hitem
  dsimp only
  split_ifs
  · exact hset _ (h before hbefore)
  · exact h before hbefore

theorem sound_carry (bytes : Int) (m : LinkModel) (h : m.Sound) : (m.carry bytes).Sound := h

theorem isSome_of_identities (h : fleet'.identities = fleet.identities) (linkId : String) :
    (fleet'.models.get? linkId).isSome = (fleet.models.get? linkId).isSome := by
  have hget (fleet : LinkFleet) : (fleet.models.get? linkId).isSome =
      (fleet.identities.get? linkId).isSome := by
    rw [LinkFleet.identities, Dict.get?_map, Option.isSome_map]
  rw [hget, hget, h]

theorem applyEvent_returns {event : Event} (htargets : event.Targets fleet) (hsound : fleet.Sound)
    (authority : Bool) : ∃ fleet' authority', applyEvent fleet event authority =
      .ok (fleet', authority') ∧ fleet'.Sound := by
  have hassign (field : String) {set : LinkModel → LinkModel}
      (hset : ∀ m : LinkModel, m.Sound → (set m).Sound)
      (hlink : (fleet.models.get? event.target).isSome = true) :
      ∃ fleet' authority', (fleet.assign event.target field set).map (·, authority) =
        .ok (fleet', authority') ∧ fleet'.Sound := by
    obtain ⟨m, hm⟩ := Option.isSome_iff_exists.mp hlink
    refine ⟨_, authority, ?_, sound_modify hset hsound event.target⟩
    rw [LinkFleet.assign, hm]
    rfl
  have hup (b : Bool) (m : LinkModel) (hm : m.Sound) : (m.setUp b).Sound := hm
  have hsensor (b : Bool) (m : LinkModel) (hm : m.Sound) : (m.setSensorFailed b).Sound := hm
  have hvisibility {v : Double} (hv : v.IsFinite) (m : LinkModel) (hm : m.Sound) :
      (m.setVisibility v).Sound := by
    obtain ⟨_, _, _, _, kind⟩ := m
    cases kind with
    | fso _ _ _ => exact ⟨hv, hm.2⟩
    | _ => exact hm
  have hobstructed (b : Bool) (m : LinkModel) (hm : m.Sound) : (m.setObstructed b).Sound := by
    obtain ⟨_, _, _, _, kind⟩ := m
    cases kind with
    | _ => exact hm
  obtain ⟨atS, kind, target⟩ := event
  have hlink (h : kind ≠ .authorityUnreachable) (h' : kind ≠ .authorityReachable) :
      (fleet.models.get? target).isSome = true := (htargets.resolve_left h).resolve_left h'
  cases kind with
  | linkDown => exact hassign "up" (hup _) (hlink nofun nofun)
  | linkUp => exact hassign "up" (hup _) (hlink nofun nofun)
  | fog => exact hassign "visibility_m" (hvisibility rfl) (hlink nofun nofun)
  | clear => exact hassign "visibility_m" (hvisibility rfl) (hlink nofun nofun)
  | obstruct => exact hassign "obstructed" (hobstructed _) (hlink nofun nofun)
  | unobstruct => exact hassign "obstructed" (hobstructed _) (hlink nofun nofun)
  | sensorFail => exact hassign "sensor_failed" (hsensor _) (hlink nofun nofun)
  | sensorRecover => exact hassign "sensor_failed" (hsensor _) (hlink nofun nofun)
  | authorityUnreachable => exact ⟨fleet, false, rfl, hsound⟩
  | authorityReachable => exact ⟨fleet, true, rfl, hsound⟩

theorem happenAll_returns {step : Nat} {atS : Int} {events : List (Event × Nat)}
    (htargets : ∀ entry ∈ events, entry.1.Targets scene.fleet) (hsound : scene.fleet.Sound) :
    ∃ scene', scene.happenAll step atS events = .ok scene' ∧ scene'.fleet.Sound := by
  induction events generalizing scene with
  | nil => exact ⟨scene, rfl, hsound⟩
  | cons entry events ih =>
    obtain ⟨event, place⟩ := entry
    have hrest := fun entry hentry => htargets entry (List.mem_cons_of_mem _ hentry)
    unfold Scene.happenAll
    split_ifs
    · obtain ⟨fleet, authority, happly, hkept⟩ :=
        applyEvent_returns (htargets _ List.mem_cons_self) hsound scene.authorityReachable
      have hsame : fleet.identities = scene.fleet.identities := applyEvent_map unseen_identity happly
      have hstill : ∀ entry ∈ events, entry.1.Targets fleet := by
        intro entry hentry
        have htarget := hrest entry hentry
        rwa [Event.Targets, ← isSome_of_identities hsame] at htarget
      obtain ⟨scene', hscene', hsound'⟩ : ∃ scene', Scene.happenAll step atS events
          ⟨fleet, authority, scene.applied ++ [(step, place)]⟩ = .ok scene' ∧ scene'.fleet.Sound :=
        ih hstill hkept
      exact ⟨scene', bind_eq_ok_iff.mpr ⟨_, happly, hscene'⟩, hsound'⟩
    · exact ih hrest hsound

end Keeping

/-! ## Steps that return -/

section Steps
variable {rd : ℚ → Double} (hrd : NoOverflow rd) {ρ : Type} {generator : Random ρ}
  (hdraws : ∀ rng, (generator.random rng).1.IsFinite) {scenario : Scenario} {step : Nat}
  {fleet : LinkFleet}

/-- An instant of a step that is in the calendar. -/
theorem instant_returns (seconds : Int) (hlower : 0 ≤ seconds)
    (hupper : 1787918400 + seconds ≤ maxSecond) :
    ∃ now, T0.add (seconds * 1000000) = .ok now ∧ timedeltaSeconds seconds =
      .ok (seconds * 1000000) := by
  have hmax : maxSecond = 253402300799 := rfl
  have hin : minSecond * 1000000 ≤ T0.us + seconds * 1000000 ∧
      T0.us + seconds * 1000000 < (maxSecond + 1) * 1000000 := by
    rw [show T0.us = 1787918400 * 1000000 from rfl, show minSecond = -62135596800 from rfl]
    omega
  refine ⟨⟨_, hin.1, hin.2⟩, DateTime.ofUs_eq_ok.mpr rfl, ?_⟩
  unfold timedeltaSeconds
  dsimp only
  rw [if_pos (by omega)]

include hrd hdraws in
/-- A step can be looked at, and leaves the fleet sound. -/
theorem look_returns (hsound : scenario.Sound) (hlast : scenario.atS step ≤ scenario.durationS)
    {world : World ρ} (hsame : world.scene.fleet.identities = scenario.fleet.identities)
    (hdevices : world.scene.fleet.Sound) : ∃ ctx world',
      world.look rd generator scenario step = .ok (ctx, world') ∧ world'.scene.fleet.Sound := by
  have hlower : 0 ≤ scenario.atS step := mul_nonneg (Int.natCast_nonneg step) hsound.forward.le
  have hupper := hsound.inCalendar
  obtain ⟨now, hnow, hseconds⟩ := instant_returns _ hlower (by omega)
  have htargets : ∀ entry ∈ scenario.events.zipIdx, entry.1.Targets world.scene.fleet := by
    intro entry hentry
    have htarget := hsound.targets entry.1 (List.fst_mem_of_mem_zipIdx hentry)
    rwa [Event.Targets, ← isSome_of_identities hsame] at htarget
  obtain ⟨scene, hscene, hkept⟩ : ∃ scene, scenario.happen step world.scene = .ok scene ∧
      scene.fleet.Sound := happenAll_returns htargets hdevices
  obtain ⟨reported, rng, hreported⟩ := fleet_reports_all (t := now) hrd hdraws hkept world.rng
  exact ⟨_, _, bind_eq_ok_iff.mpr ⟨_, hseconds, bind_eq_ok_iff.mpr ⟨now, hnow,
    bind_eq_ok_iff.mpr ⟨scene, hscene, bind_eq_ok_iff.mpr ⟨_, hreported, rfl⟩⟩⟩⟩, hkept⟩

include hrd in
theorem spent_returns {m : LinkModel} (hsound : m.Sound) : ∃ spent, m.spent rd = .ok spent := by
  unfold LinkModel.spent
  cases hquota : m.quotaGb with
  | none => exact ⟨false, rfl⟩
  | some quotaGb =>
    have hfinite : quotaGb.IsFinite := by
      unfold LinkModel.quotaGb at hquota
      unfold LinkModel.Sound at hsound
      cases hkind : m.kind with
      | lte _ _ _ _ =>
        rw [hkind] at hquota hsound
        exact Option.some.inj hquota ▸ hsound.1
      | satellite _ _ _ _ =>
        rw [hkind] at hquota hsound
        exact Option.some.inj hquota ▸ hsound.1
      | base => simp [hkind] at hquota
      | fiber _ => simp [hkind] at hquota
      | fso _ _ _ => simp [hkind] at hquota
    obtain ⟨pct, hpct, -⟩ := quotaUsedPct_returns hrd hfinite m.bytesCarried
    exact ⟨_, by simp only [hpct]; rfl⟩

theorem sound_of_get? (hsound : fleet.Sound) {linkId : String} {m : LinkModel}
    (h : fleet.models.get? linkId = some m) : m.Sound :=
  hsound (linkId, m) (Dict.get?_eq_some.mp h)

/-- What is chosen: a link of the policy for one of its classes. -/
def Listed (scenario : Scenario) (choices : Choices) : Prop :=
  ∀ classId linkId, (classId, some linkId) ∈ choices →
    (∃ c, scenario.classes.get? classId = some c) ∧ ∃ link, scenario.links.get? linkId = some link

include hrd in
theorem judged_returns (hsound : fleet.Sound) {choices : Choices} (hlisted : Listed scenario choices)
    (atS : Int) (trueRtt : List (String × Double)) : ∃ found,
      checkViolations rd atS scenario.links scenario.classes fleet trueRtt choices = .ok found := by
  refine checkViolations_returns ?_
  intro classId linkId hchoice
  obtain ⟨⟨tclass, htclass⟩, link, hlink⟩ := hlisted classId linkId hchoice
  obtain ⟨missed, hmissed⟩ := missesLatency_returns tclass (trueRtt.lookup linkId)
  obtain ⟨spent, hspent⟩ : ∃ spent, fleet.spent rd linkId = .ok spent := by
    unfold LinkFleet.spent
    cases hmodel : fleet.models.get? linkId with
    | none => exact ⟨false, rfl⟩
    | some m => exact spent_returns hrd (sound_of_get? hsound hmodel)
  exact ⟨_, checkChoice_ok.mpr ⟨link, tclass, missed, spent, hlink, htclass, hmissed, hspent, rfl⟩⟩

include hrd in
theorem carryAll_returns (hsound : fleet.Sound) {choices : Choices} (hthere : ∀ classId linkId,
      (classId, some linkId) ∈ choices → (fleet.models.get? linkId).isSome = true)
    (result : RunResult) : ∃ fleet' result', carryAll rd scenario choices fleet result =
      .ok (fleet', result') ∧ fleet'.Sound := by
  induction choices generalizing fleet result with
  | nil => exact ⟨fleet, result, rfl, hsound⟩
  | cons choice choices ih =>
    obtain ⟨fleet₁, result₁, hone, hsound₁⟩ : ∃ fleet₁ result₁,
        carryOne rd scenario fleet result choice = .ok (fleet₁, result₁) ∧ fleet₁.Sound := by
      obtain ⟨classId, linkId⟩ := choice
      cases linkId with
      | none => exact ⟨fleet, _, rfl, hsound⟩
      | some linkId =>
        obtain ⟨m, hm⟩ := Option.isSome_iff_exists.mp (hthere classId linkId List.mem_cons_self)
        have hmodel := getKey_eq_ok.mpr hm
        have hup : fleet.isUp linkId = .ok m.isUp := by
          rw [LinkFleet.isUp, hmodel]
          rfl
        by_cases hlive : m.isUp = true
        · obtain ⟨spent, hspent⟩ := spent_returns hrd (sound_of_get? hsound hm)
          let carried := (scenario.trafficBytesPerS.get? classId).getD 0 * scenario.stepS
          have hafter : (⟨fleet.models.modify linkId (.carry carried)⟩ : LinkFleet).Sound :=
            sound_modify (sound_carry carried) hsound linkId
          obtain ⟨gb, hgb, -⟩ := trueDiv_returns hrd carried (n := 10 ^ 9) (by decide)
          cases spent with
          | true =>
            exact ⟨_, _, bind_eq_ok_iff.mpr ⟨_, hup, (if_pos hlive).trans (bind_eq_ok_iff.mpr
              ⟨m, hmodel, bind_eq_ok_iff.mpr ⟨true, hspent, bind_eq_ok_iff.mpr ⟨gb, hgb, rfl⟩⟩⟩)⟩,
              hafter⟩
          | false =>
            exact ⟨_, _, bind_eq_ok_iff.mpr ⟨_, hup, (if_pos hlive).trans (bind_eq_ok_iff.mpr
              ⟨m, hmodel, bind_eq_ok_iff.mpr ⟨false, hspent, rfl⟩⟩)⟩, hafter⟩
        · exact ⟨fleet, _, bind_eq_ok_iff.mpr ⟨_, hup, if_neg hlive⟩, hsound⟩
    obtain ⟨fleet', result', hrest, hsound'⟩ := ih hsound₁ (by
      intro classId linkId hchoice
      have hsame : fleet₁.identities = fleet.identities := by
        rw [← identities_idle, carryOne_idle hone, identities_idle]
      rw [isSome_of_identities hsame]
      exact hthere classId linkId (List.mem_cons_of_mem _ hchoice)) result₁
    exact ⟨fleet', result', bind_eq_ok_iff.mpr ⟨_, hone, hrest⟩, hsound'⟩

end Steps

/-! ## Runs that return -/

/-- What a step of the scenario shows. -/
structure Shows (scenario : Scenario) (step : Nat) (ctx : SelectorContext) : Prop where
  now : ctx.now.us = T0.us + scenario.atS step * 1000000
  inTime : scenario.atS step ≤ scenario.durationS
  links : ctx.links = scenario.links.items
  classes : ctx.classes = scenario.classes.items

/-- A selector that returns in every step of a scenario, and chooses among the links of its policy
what it has observed up. `Ready n` are the states in which it can take step `n`. -/
structure Serves {σ : Type} (scenario : Scenario) (selector : Selector σ)
    (Ready : Nat → σ → Prop) : Prop where
  sighted : Sighted selector
  reset : ∀ s, ∃ state, selector.reset s = .ok state ∧ Ready 0 state
  call : ∀ {step : Nat} {state : σ} {ctx : SelectorContext}, Ready step state →
    Shows scenario step ctx → ∃ choices state', selector.call ctx state = (.ok choices, state') ∧
      Ready (step + 1) state' ∧ ∀ classId linkId, (classId, some linkId) ∈ choices →
        ∃ link, scenario.links.get? linkId = some link

section Runs
variable {rd : ℚ → Double} (hrd : NoOverflow rd) {ρ : Type} {generator : Random ρ}
  (hdraws : ∀ rng, (generator.random rng).1.IsFinite) {scenario : Scenario} {σ : Type}
  {selector : Selector σ} {Ready : Nat → σ → Prop}

/-- The loop can take the next step. -/
structure Going (scenario : Scenario) (Ready : Nat → σ → Prop) (step : Nat) (loop : Loop ρ σ) :
    Prop where
  identities : loop.world.scene.fleet.identities = scenario.fleet.identities
  devices : loop.world.scene.fleet.Sound
  ready : Ready step loop.selector

include hrd hdraws

theorem step_returns (hsound : scenario.Sound) (hserves : Serves scenario selector Ready)
    {step : Nat} (hlast : scenario.atS step ≤ scenario.durationS) {loop : Loop ρ σ}
    (h : Going scenario Ready step loop) : ∃ loop',
      loop.step rd generator scenario selector step = .ok loop' ∧
      Going scenario Ready (step + 1) loop' := by
  obtain ⟨ctx, world, hlook, hdevices⟩ :=
    look_returns hrd hdraws hsound hlast h.identities h.devices
  have hidentities := (look_identities hlook).trans h.identities
  obtain ⟨-, hreported, hlinks, hclasses⟩ := look_ok hlook
  obtain ⟨choices, state, hcall, hready, hlisted⟩ :=
    hserves.call h.ready ⟨look_now hlook, hlast, hlinks, hclasses⟩
  have hlisted : Listed scenario choices := by
    intro classId linkId hchoice
    refine ⟨?_, hlisted classId linkId hchoice⟩
    have hclass : classId ∈ scenario.classes.items.map Prod.fst := by
      rw [← hclasses, ← hserves.sighted.classes hcall]
      exact List.mem_map_of_mem (f := Prod.fst) hchoice
    obtain ⟨c, hc, rfl⟩ := List.mem_map.mp hclass
    exact ⟨c.2, Dict.get?_eq_some.mpr hc⟩
  have hthere : ∀ classId linkId, (classId, some linkId) ∈ choices →
      (world.scene.fleet.models.get? linkId).isSome = true := by
    intro classId linkId hchoice
    obtain ⟨m, hm, -⟩ := isUp_of_observed (keyed_of_identities hidentities hsound.keyed) hreported
      (hserves.sighted.up hcall hchoice)
    rw [hm]
    rfl
  obtain ⟨found, hfound⟩ := judged_returns hrd hdevices hlisted (scenario.atS step)
    (world.scene.fleet.trueRtt rd)
  obtain ⟨fleet, result, hcarry, hsound'⟩ := carryAll_returns hrd hdevices hthere
    { loop.result with violations := loop.result.violations ++ found }
  refine ⟨_, bind_eq_ok_iff.mpr ⟨_, hlook, bind_eq_ok_iff.mpr ⟨choices, congrArg Prod.fst hcall,
    bind_eq_ok_iff.mpr ⟨found, hfound, bind_eq_ok_iff.mpr ⟨_, hcarry, rfl⟩⟩⟩⟩, ?_⟩
  refine ⟨?_, hsound', ?_⟩
  · show fleet.identities = _
    rw [← identities_idle, carryAll_idle hcarry, identities_idle, hidentities]
  · show Ready (step + 1) (selector.call ctx loop.selector).2
    rwa [hcall]

omit hrd hdraws in
/-- The steps of a run begin before its end. -/
theorem atS_le (hsound : scenario.Sound) {steps : Int} (hsteps : scenario.steps = .ok steps)
    {step : Nat} (hstep : step < steps.toNat) : scenario.atS step ≤ scenario.durationS := by
  have hforward := hsound.forward
  have hfdiv : scenario.durationS.fdiv scenario.stepS = steps := by
    rw [Scenario.steps, if_neg hforward.ne'] at hsteps
    exact Except.ok.inj hsteps
  rw [Int.fdiv_eq_ediv_of_nonneg _ hforward.le] at hfdiv
  have hcount : (step : Int) ≤ scenario.durationS / scenario.stepS := by omega
  exact (mul_le_mul_of_nonneg_right hcount hforward.le).trans
    (Int.ediv_mul_le _ hforward.ne')

/-- A run of a selector that serves a sound scenario returns, whatever is drawn. -/
theorem run_completes (hsound : scenario.Sound) (hserves : Serves scenario selector Ready) (s : σ)
    (seed : Int) : ∃ result, run rd generator scenario selector s seed = .ok result := by
  obtain ⟨state, hreset, hready⟩ := hserves.reset s
  obtain ⟨steps, hsteps⟩ : ∃ steps, scenario.steps = .ok steps := by
    rw [Scenario.steps, if_neg hsound.forward.ne']
    exact ⟨_, rfl⟩
  have hloops (n : Nat) (hn : n ≤ steps.toNat) : ∃ loop, Loop.after rd generator scenario selector
      (.start generator scenario seed state) n = .ok loop ∧ Going scenario Ready n loop := by
    induction n with
    | zero => exact ⟨_, rfl, rfl, hsound.devices, hready⟩
    | succ n ih =>
      obtain ⟨before, hbefore, hgoing⟩ := ih (Nat.le_of_succ_le hn)
      obtain ⟨loop, hstep, hgoing'⟩ :=
        step_returns hrd hdraws hsound hserves (atS_le hsound hsteps hn) hgoing
      exact ⟨loop, bind_eq_ok_iff.mpr ⟨before, hbefore, hstep⟩, hgoing'⟩
  obtain ⟨loop, hloop, -⟩ := hloops steps.toNat le_rfl
  exact ⟨loop.result, bind_eq_ok_iff.mpr ⟨state, hreset, bind_eq_ok_iff.mpr ⟨steps, hsteps,
    bind_eq_ok_iff.mpr ⟨loop, hloop, rfl⟩⟩⟩⟩

end Runs

/-! ## The compared selectors -/

section Baselines
variable {scenario : Scenario}

theorem bestOfAll_listed {ctx : SelectorContext} {step : Nat} (h : Shows scenario step ctx)
    {linkId : String} (hbest : bestOfAll ctx = some linkId) :
    ∃ link, scenario.links.get? linkId = some link := by
  obtain ⟨hlisted, -⟩ := lowestLatency_of_bestOfAll hbest
  rw [h.links] at hlisted
  obtain ⟨item, hitem, rfl⟩ := List.mem_map.mp hlisted
  exact ⟨item.2, Dict.get?_eq_some.mpr hitem⟩

theorem serves_greedy (scenario : Scenario) : Serves scenario greedy fun _ _ => True where
  sighted := sighted_of_shipped .greedy
  reset s := ⟨s, rfl, trivial⟩
  call := by
    intro step state ctx _ hshows
    refine ⟨_, _, rfl, trivial, ?_⟩
    intro classId linkId hchoice
    exact bestOfAll_listed hshows (mem_everyClass.mp hchoice).2.symm

/-- A list of links of the policy. -/
theorem serves_staticPriority {order : List String}
    (horder : ∀ linkId ∈ order, ∃ link, scenario.links.get? linkId = some link) :
    Serves scenario (staticPriority order) fun _ _ => True where
  sighted := sighted_of_shipped (.staticPriority order)
  reset s := ⟨s, rfl, trivial⟩
  call := by
    intro step state ctx _ hshows
    refine ⟨_, _, rfl, trivial, ?_⟩
    intro classId linkId hchoice
    exact horder linkId (List.mem_of_find?_eq_some (mem_everyClass.mp hchoice).2.symm)

theorem serves_hysteresis (scenario : Scenario) (dwellS : Double) :
    Serves scenario (hysteresis dwellS) fun _ s =>
      ∀ linkId, s.current = some linkId → ∃ link, scenario.links.get? linkId = some link where
  sighted := sighted_of_shipped (.hysteresis dwellS)
  reset s := ⟨{}, rfl, nofun⟩
  call := by
    intro step state ctx hready hshows
    have hnext (linkId : String) (h : (Hysteresis.next dwellS ctx state).current = some linkId) :
        ∃ link, scenario.links.get? linkId = some link := by
      rcases Hysteresis.next_cases dwellS ctx state with ⟨hkept, -⟩ | ⟨hset, -⟩
      · rw [hkept] at h
        exact hready linkId h
      · rw [hset] at h
        exact bestOfAll_listed hshows h
    refine ⟨_, _, rfl, hnext, ?_⟩
    intro classId linkId hchoice
    exact hnext linkId (mem_everyClass.mp hchoice).2.symm

end Baselines

/-- A scenario whose policy can be reissued in every step, and has a floor. -/
structure Scenario.Governable (scenario : Scenario) (validity : Int) : Prop where
  reissuable : Reissuable scenario.bundle validity
  linkIds : (scenario.bundle.links.map (·.id)).Nodup
  issued : ∃ n, scenario.bundle.issuedAt.us = n * 1000000 ∧ n + 315360000 ≤ maxSecond
  decisions : 0 ≤ scenario.bundle.decisionTtlS
  inCalendar : ∀ s ∈ [validity, scenario.bundle.decisionTtlS, 60],
    1787918400 + scenario.durationS + s ≤ maxSecond

section Governed
variable {rt : Runtime} (laws : rt.Lawful) {authorityKey siteKey : rt.PrivateKey}
  {scenario : Scenario} {siteId : String} {validity : Int}
  {undeclared : Undeclared}

/-- The selector governs by the policy and is in step with its authority. -/
structure InService (scenario : Scenario) (authorityKey : rt.PrivateKey) (validity : Int)
    (step : Nat) (g : Governed rt) : Prop where
  governs : Governs scenario.bundle g
  inStep : ∃ (floor : PolicyBundle) (last : Option DateTime) (published : Nat),
    floor.decisionTtlS = 60 ∧
    floor.trafficClasses = floorClasses (some scenario.bundle.trafficClasses) ∧
    published ≤ step ∧ InStep authorityKey scenario.bundle floor validity last published g

theorem DecidesBy.links {bundle b : PolicyBundle} {degraded : Bool}
    (h : DecidesBy bundle b degraded) : b.links = bundle.links := by
  cases h with
  | policy h => exact h.links
  | floor h => exact h.fields.1

/-- An instant some seconds after a step. -/
theorem later_returns (hforward : 0 < scenario.stepS) {step : Nat} {ctx : SelectorContext}
    (hshows : Shows scenario step ctx) {s : Int} (hs : 0 ≤ s)
    (hupper : 1787918400 + scenario.durationS + s ≤ maxSecond) :
    (∃ t, ctx.now.add (s * 1000000) = .ok t) ∧ timedeltaSeconds s = .ok (s * 1000000) := by
  have hlower : 0 ≤ scenario.atS step := mul_nonneg (Int.natCast_nonneg step) hforward.le
  have hlast := hshows.inTime
  obtain ⟨t, ht, -⟩ := instant_returns (scenario.atS step + s) (by omega) (by omega)
  refine ⟨⟨t, DateTime.ofUs_eq_ok.mpr ?_⟩, (instant_returns s hs (by omega)).choose_spec.2⟩
  rw [DateTime.ofUs_eq_ok.mp ht, hshows.now]
  ring

include laws

theorem reset_serves (hgovernable : scenario.Governable validity) :
    ∃ g, Governed.reset authorityKey siteKey scenario.bundle siteId = .ok g ∧
      InService scenario authorityKey validity 0 g := by
  obtain ⟨n, hissued, hn⟩ := hgovernable.issued
  obtain ⟨floor, hfloor, hcut⟩ := floorBundle_whole hissued hn scenario.bundle.links "authority-1"
    scenario.bundle.trafficClasses
  obtain ⟨signedFloor, hsign⟩ : ∃ signedFloor, signFloor ⟨authorityKey, "authority-1"⟩ siteId
      scenario.bundle.links scenario.bundle.trafficClasses scenario.bundle.issuedAt =
        .ok signedFloor := signFloor_ok siteId rfl hfloor
  have hinstall := installFloor_signFloor laws rfl hfloor hsign (DateTime.cut_of_whole hissued) hcut
  have hinit : BundleStore.init (rt.publicKey authorityKey) "authority-1" siteId signedFloor none
      (.memory (.int (-1))) none = .ok _ :=
    BundleStore.init_ok.mpr ⟨floor.toWire, .int (-1), hinstall, rfl, rfl, rfl⟩
  have hreset : Governed.reset authorityKey siteKey scenario.bundle siteId = .ok _ :=
    bind_eq_ok_iff.mpr ⟨signedFloor, hsign, bind_eq_ok_iff.mpr ⟨_, hinit, rfl⟩⟩
  obtain ⟨c, httl, hclasses, hinStep⟩ := inStep_reset laws hgovernable.reissuable.whole hreset
  exact ⟨_, hreset, governs_reset laws hreset, c, none, 0, httl, hclasses, le_rfl, hinStep⟩

/-- A governed step returns and leaves the selector in service. -/
theorem call_serves (hforward : 0 < scenario.stepS) (hcalendar : 1787918400 + scenario.durationS ≤
      maxSecond) (hgovernable : scenario.Governable validity) {step : Nat} {g : Governed rt}
    {ctx : SelectorContext} (hg : InService scenario authorityKey validity step g)
    (hshows : Shows scenario step ctx) : ∃ choices g',
      Governed.call undeclared ctx g = (.ok choices, g') ∧
      InService scenario authorityKey validity (step + 1) g' ∧
      ∀ classId linkId, (classId, some linkId) ∈ choices →
        ∃ link, scenario.links.get? linkId = some link := by
  obtain ⟨floor, last, published, httl, hclasses, hpublished, hinStep⟩ := hg.inStep
  have hin := hgovernable.inCalendar
  have hvalidity := (later_returns hforward hshows (by have := hgovernable.reissuable.positive; omega)
    (hin validity (by simp))).1
  obtain ⟨hdecision, hseconds⟩ := later_returns hforward hshows hgovernable.decisions
    (hin scenario.bundle.decisionTtlS (by simp))
  have hminute := (later_returns hforward hshows (s := 60) (by decide) (hin 60 (by simp))).1
  have hcount : published + [ctx].countP (·.authorityReachable) < 256 ^ 16 := by
    have hone : [ctx].countP (·.authorityReachable) ≤ 1 := List.countP_le_length
    have hstep : (step : Int) ≤ scenario.atS step := by
      have hscaled := mul_le_mul_of_nonneg_left (show 1 ≤ scenario.stepS by omega)
        (Int.natCast_nonneg step)
      rwa [mul_one] at hscaled
    have hlast := hshows.inTime
    have hmax : maxSecond = 253402300799 := rfl
    have hroom : (253402300799 : Nat) + 1 < 256 ^ 16 := by decide
    omega
  obtain ⟨choices, g', -, hcall, hinStep', -⟩ := call_returns laws ctx undeclared
    hgovernable.reissuable httl hclasses hinStep
    ⟨1787918400 + scenario.atS step, by rw [hshows.now, add_mul]; rfl⟩
    ⟨fun _ => hvalidity, fun _ => by rw [validUntil, hseconds]; exact hdecision, fun _ => hminute⟩
    hcount
  obtain ⟨hgoverns, b, degraded, site, d, hby, -, hdecide, hchoices⟩ :=
    governs_call laws undeclared ctx hg.governs hcall
  refine ⟨choices, g', hcall, ⟨hgoverns, floor, _, _, httl, hclasses, ?_, hinStep'⟩, ?_⟩
  · have hone : [ctx].countP (·.authorityReachable) ≤ 1 := List.countP_le_length
    omega
  · intro classId linkId hchoice
    rw [hchoices] at hchoice
    obtain ⟨c, -, hpair⟩ := List.mem_map.mp hchoice
    obtain ⟨-, -, link, hlink, rfl, -⟩ := choose_admits hdecide (Prod.mk.inj hpair).2
    exact ⟨link, links_get? hgovernable.linkIds (hby.links ▸ hlink)⟩

theorem serves_governed (hforward : 0 < scenario.stepS)
    (hcalendar : 1787918400 + scenario.durationS ≤ maxSecond)
    (hgovernable : scenario.Governable validity) :
    Serves scenario (governed authorityKey siteKey scenario.bundle siteId undeclared)
      (InService scenario authorityKey validity) where
  sighted := sighted_of_shipped (.governed ..)
  reset _ := reset_serves laws hgovernable
  call hg hshows := call_serves laws hforward hcalendar hgovernable hg hshows

end Governed

/-- A governed run of a sound scenario returns, whatever is drawn and with whatever rounding does not
overflow. -/
theorem governed_completes {rt : Runtime} (laws : rt.Lawful) {rd : ℚ → Double} (hrd : NoOverflow rd)
    {ρ : Type} {generator : Random ρ} (hdraws : ∀ rng, (generator.random rng).1.IsFinite)
    {scenario : Scenario} {validity : Int} (hsound : scenario.Sound)
    (hgovernable : scenario.Governable validity) (authorityKey siteKey : rt.PrivateKey)
    (siteId : String) (undeclared : Undeclared) (s : Governed rt) (seed : Int) :
    ∃ result, run rd generator scenario
      (governed authorityKey siteKey scenario.bundle siteId undeclared) s seed = .ok result :=
  run_completes hrd hdraws hsound (serves_governed laws hsound.forward hsound.inCalendar hgovernable)
    s seed

namespace Scenarios

/-- The models of the site. -/
theorem sound_fleet {quotaGb : Double} (hquota : quotaGb.IsFinite) : (fleet quotaGb).Sound := by
  intro item hitem
  rw [fleet_items] at hitem
  simp only [List.mem_cons, List.not_mem_nil, or_false] at hitem
  rcases hitem with rfl | rfl | rfl | rfl
  · exact rfl
  · exact ⟨hquota, rfl, rfl⟩
  · exact ⟨rfl, rfl⟩
  · exact ⟨rfl, rfl⟩

/-- Events that are about the authority or a link of the site. -/
theorem targets_fleet {events : List Event} (quotaGb : Double) (h : ∀ event ∈ events,
      event.kind = .authorityUnreachable ∨ event.kind = .authorityReachable ∨
        event.target ∈ ["fiber0", "fso0"]) :
    ∀ event ∈ events, event.Targets (fleet quotaGb) := by
  intro event hevent
  rcases h event hevent with hbreak | hrestore | hlink
  · exact .inl hbreak
  · exact .inr (.inl hrestore)
  · refine .inr (.inr ?_)
    have hget {m : LinkModel} (hm : (event.target, m) ∈ (fleet quotaGb).models.items) :
        ((fleet quotaGb).models.get? event.target).isSome = true := by
      rw [Dict.get?_eq_some.mpr hm]
      rfl
    rw [fleet_items] at hget
    rcases List.mem_pair.mp hlink with htarget | htarget
    · exact hget (m := fiberModel "fiber0") (by simp [htarget])
    · exact hget (m := fsoModel "fso0") (by simp [htarget])

theorem flappy_target {event : Event} (h : event ∈ flappy.events) : event.target = "fso0" := by
  obtain ⟨second, -, rfl⟩ := List.mem_map.mp h
  rfl

theorem sound_shipped {scenario : NamedScenario} (h : scenario ∈ allScenarios) :
    scenario.toScenario.Sound := by
  have hsite {events : List Event} (hevents : ∀ event ∈ events,
        event.kind = .authorityUnreachable ∨ event.kind = .authorityReachable ∨
          event.target ∈ ["fiber0", "fso0"])
      (b : PolicyBundle) (q : ℚ) (d : Dict String Int) :
      Scenario.Sound ⟨b, fleet (.fin q), d, events, 3600, 30⟩ :=
    ⟨keyed_fleet _, sound_fleet rfl, targets_fleet _ hevents, (by decide : (0 : Int) < 30),
      (by decide : (1787918400 : Int) + 3600 ≤ maxSecond)⟩
  simp only [allScenarios, List.mem_cons, List.not_mem_nil, or_false] at h
  rcases h with rfl | rfl | rfl | rfl | rfl
  · exact hsite (by decide) _ _ _
  · exact hsite (by decide) _ _ _
  · exact hsite (by decide) _ _ _
  · refine hsite (fun event hevent => .inr (.inr ?_)) _ _ _
    rw [flappy_target hevent]
    decide
  · exact hsite (by decide) _ _ _

/-- A shipped scenario can be governed, for the validity of its bundle. -/
theorem governable_shipped {scenario : NamedScenario} (h : scenario ∈ allScenarios) :
    ∃ validity, scenario.toScenario.Governable validity := by
  have hsite {notAfter : DateTime} {validity : Int}
      (hvalidity : notAfter.us - T0.us = validity * 1000000) (hpositive : 1 ≤ validity)
      (hlimit : validity ≤ 1800) (f : LinkFleet) (d : Dict String Int) (events : List Event) :
      Scenario.Governable ⟨policy notAfter 120, f, d, events, 3600, 30⟩ validity := by
    refine ⟨reissuable_policy _ _ hvalidity hpositive, (by decide : (links.map (·.id)).Nodup),
      ⟨1787918400, rfl, by decide⟩, (by decide : (0 : Int) ≤ 120), ?_⟩
    intro s hs
    have hmax : maxSecond = 253402300799 := rfl
    simp only [policy, List.mem_cons, List.not_mem_nil, or_false] at hs
    rcases hs with rfl | rfl | rfl
    · show 1787918400 + 3600 + s ≤ _
      omega
    · exact (by decide : (1787918400 : Int) + 3600 + 120 ≤ maxSecond)
    · exact (by decide : (1787918400 : Int) + 3600 + 60 ≤ maxSecond)
  simp only [allScenarios, List.mem_cons, List.not_mem_nil, or_false] at h
  rcases h with rfl | rfl | rfl | rfl | rfl
  · exact ⟨1800, hsite rfl (by decide) (by decide) _ _ _⟩
  · exact ⟨1800, hsite rfl (by decide) (by decide) _ _ _⟩
  · exact ⟨1800, hsite rfl (by decide) (by decide) _ _ _⟩
  · exact ⟨1800, hsite rfl (by decide) (by decide) _ _ _⟩
  · exact ⟨900, hsite rfl (by decide) (by decide) _ _ _⟩

end Scenarios

namespace Sample

/-- A generator that always draws the middle. -/
def halves : Random Unit where
  seeded _ := ()
  random _ := (.fin (1 / 2), ())

theorem finite_halves (rng : Unit) : (halves.random rng).1.IsFinite := rfl

/-- The shipped scenarios have governed runs. -/
theorem shipped_run {scenario : NamedScenario} (h : scenario ∈ Scenarios.allScenarios) :
    ∃ s result, run .fin halves scenario.toScenario
      (governed signer.key siteKey scenario.bundle scenario.siteId undeclared) s 0 = .ok result := by
  obtain ⟨validity, hgovernable⟩ := Scenarios.governable_shipped h
  have hsound := Scenarios.sound_shipped h
  obtain ⟨s, -⟩ : ∃ s, Governed.reset signer.key siteKey scenario.bundle scenario.siteId = .ok s ∧ _ :=
    reset_serves lawful_standIn hgovernable
  exact ⟨s, run_completes noOverflow_exact finite_halves hsound
    (serves_governed lawful_standIn hsound.forward hsound.inCalendar hgovernable) s 0⟩

end Sample

/-- The run that loses its authority comes to its end. -/
theorem governed_completes_sample : ∃ s result, run .fin Sample.halves
    Scenarios.authorityBlackout.toScenario (governed Sample.signer.key Sample.siteKey
      Scenarios.authorityBlackout.bundle "sim-site" Sample.undeclared) s 0 = .ok result := by
  have hshipped : Scenarios.authorityBlackout ∈ Scenarios.allScenarios := by
    simp [Scenarios.allScenarios]
  obtain ⟨validity, hgovernable⟩ := Scenarios.governable_shipped hshipped
  obtain ⟨s, -⟩ : ∃ s, Governed.reset Sample.signer.key Sample.siteKey
      Scenarios.authorityBlackout.bundle "sim-site" = .ok s ∧ _ :=
    reset_serves lawful_standIn hgovernable
  exact ⟨s, governed_completes lawful_standIn noOverflow_exact Sample.finite_halves
    (Scenarios.sound_shipped hshipped) hgovernable Sample.signer.key Sample.siteKey "sim-site"
    Sample.undeclared s 0⟩

end Pilotfish
