import Pilotfish.Simulation

/-!
# The policy engine and the oracle

The oracle judges a choice by the stated requirements of a class and the true state of a link; the
policy engine by rules and by what was measured. They share no code. Under a bundle that has a rule
for each requirement they agree on everything but latency, which the oracle knows better.

Results:
1. `not_forbidden`, `not_spent`: what the rules that admit a link leave the oracle to find.
2. `oracle_agrees`: inside what is permitted the oracle reports latency only, and what it reports of
   a link otherwise was not permitted.
-/

namespace Pilotfish
open Python

/-- The type of link a model is of. -/
def LinkModel.type? (m : LinkModel) : Option String :=
  match m.kind with
  | .base => none
  | .fiber _ => some "fiber"
  | .lte _ _ _ _ => some "lte"
  | .satellite _ _ _ _ => some "satellite"
  | .fso _ _ _ => some "fso"

/-- A bundle that speaks of the models of a fleet, and has a rule for each stated requirement. -/
structure Guarded (bundle : PolicyBundle) (fleet : LinkFleet) : Prop where
  keyed : ∀ key m, fleet.models.get? key = some m → m.linkId = key
  linkIds : (bundle.links.map (·.id)).Nodup
  classIds : (bundle.trafficClasses.map (·.id)).Nodup
  types : ∀ link ∈ bundle.links, ∀ m, fleet.models.get? link.id = some m →
    ∀ type, m.type? = some type → link.type = type
  metered : ∀ c ∈ bundle.trafficClasses, ∃ ruleId, .metered ruleId c.id ∈ bundle.rules
  jurisdiction : ∀ c ∈ bundle.trafficClasses, ∃ ruleId, .jurisdiction ruleId c.id ∈ bundle.rules
  encryption : ∀ c ∈ bundle.trafficClasses, ∃ ruleId, .encryption ruleId c.id ∈ bundle.rules
  quota : ∀ type, type = "lte" ∨ type = "satellite" → ∃ ruleId threshold,
    .quota ruleId type threshold ∈ bundle.rules ∧ threshold.toRat ≤ 100

section Agreement
variable {rd : ℚ → Double} {ρ : Type} {generator : Random ρ} {rng rng' : ρ} {rt : Runtime}
  {bundle : PolicyBundle} {fleet : LinkFleet} {evidence : EvidenceSnapshot} {now : DateTime}
  {siteId : String} {degraded : Bool} {decision : EligibilityDecision} {tclass : TrafficClass}
  {link : Link}

/-- What is permitted to a class was admitted by every rule. -/
theorem permitted_admits (h : decide rt bundle evidence now siteId degraded = .ok decision)
    {classId linkId : String} (hpermitted : linkId ∈ decision.permittedFor classId) :
    ∃ tclass ∈ bundle.trafficClasses, tclass.id = classId ∧ ∃ link ∈ bundle.links,
      link.id = linkId ∧ admits bundle.rules (evidence.asOf now) now tclass link = true := by
  rw [EligibilityDecision.permittedFor] at hpermitted
  cases hfind : decision.classes.find? (·.classId = classId) with
  | none =>
    rw [hfind] at hpermitted
    cases hpermitted
  | some cls =>
    rw [hfind] at hpermitted
    obtain ⟨c, hc, rfl⟩ := (mem_classes h).mp (List.mem_of_find?_eq_some hfind)
    have hfound := List.find?_some hfind
    have hid : c.id = classId := of_decide_eq_true hfound
    exact ⟨c, hc, hid, mem_permitted.mp hpermitted⟩

theorem not_forbidden (hguarded : Guarded bundle fleet) (hclass : tclass ∈ bundle.trafficClasses)
    (hadmits : admits bundle.rules evidence now tclass link = true) {requirement : String} :
    ¬Forbidden tclass link requirement := by
  have hrules := admits_iff.mp hadmits
  intro hforbidden
  cases hforbidden with
  | metered hallowed hmetered =>
    obtain ⟨ruleId, hrule⟩ := hguarded.metered tclass hclass
    have := Rule.evaluate_metered.mp (hrules _ hrule) hmetered
    rw [hallowed] at this
    cases this
  | jurisdiction hallowed houtside =>
    obtain ⟨ruleId, hrule⟩ := hguarded.jurisdiction tclass hclass
    obtain ⟨hdeclared, hinside⟩ := Rule.evaluate_jurisdiction.mp (hrules _ hrule) _ hallowed
    rcases houtside with ⟨j, hj, hout⟩ | hnone
    · exact hout (hinside j hj)
    · exact hdeclared hnone
  | encryption hrequired hplain =>
    obtain ⟨ruleId, hrule⟩ := hguarded.encryption tclass hclass
    have := Rule.evaluate_encryption.mp (hrules _ hrule) hrequired
    rw [hplain] at this
    cases this

theorem metered_type {m : LinkModel} {quotaGb : Double} (h : m.quotaGb = some quotaGb) :
    ∃ type, m.type? = some type ∧ (type = "lte" ∨ type = "satellite") := by
  unfold LinkModel.quotaGb at h
  unfold LinkModel.type?
  cases hkind : m.kind with
  | lte _ _ _ _ => exact ⟨"lte", rfl, .inl rfl⟩
  | satellite _ _ _ _ => exact ⟨"satellite", rfl, .inr rfl⟩
  | base => simp [hkind] at h
  | fiber _ => simp [hkind] at h
  | fso _ _ _ => simp [hkind] at h

/-- A percentage that is reported and below a bound is no whole allowance. -/
theorem not_le_of_reported {value : Num} {pct : Double} (hvalue : value.value = .float pct)
    {bound : ℚ} (hlt : value.toRat < bound) (hbound : bound ≤ 100) :
    (Double.fin 100).le pct = false := by
  obtain ⟨v, hfinite⟩ := value
  obtain rfl : v = .float pct := hvalue
  cases pct with
  | fin q =>
    have hq : q < 100 := hlt.trans_le hbound
    simp [Double.le, Double.lt, Double.eq, hq.ne', hq.le]
  | negZero => simp [Double.le, Double.lt, Double.eq]
  | inf => cases hfinite
  | negInf => cases hfinite
  | nan => cases hfinite

/-- A metered link that is admitted reports its quota, which is the one the oracle reads. -/
theorem not_spent (hguarded : Guarded bundle fleet)
    (hreported : fleet.step rd generator now rng = .ok (evidence.observations, rng'))
    (hlink : link ∈ bundle.links)
    (hadmits : admits bundle.rules (evidence.asOf now) now tclass link = true) :
    fleet.spent rd link.id = .ok false := by
  unfold LinkFleet.spent
  cases hmodel : fleet.models.get? link.id with
  | none => rfl
  | some m =>
    show m.spent rd = _
    unfold LinkModel.spent
    cases hquota : m.quotaGb with
    | none => rfl
    | some quotaGb =>
      obtain ⟨type, htype, hmetered⟩ := metered_type hquota
      obtain rfl := hguarded.types link hlink m hmodel type htype
      obtain ⟨ruleId, threshold, hrule, hthreshold⟩ := hguarded.quota link.type hmetered
      obtain ⟨o, hlatest, hlt⟩ := Rule.evaluate_quota.mp (admits_iff.mp hadmits _ hrule)
      obtain ⟨ho, hid, hquantity⟩ :=
        EvidenceSnapshot.mem_candidates.mp (EvidenceSnapshot.latest_mem hlatest)
      obtain ⟨key, m', hkey, hreports⟩ :=
        fleet_reports hreported (EvidenceSnapshot.asOf_observations.mp ho).1
      have hown : key = link.id := by
        rw [← hguarded.keyed key m' hkey, ← hreports.linkId, hid]
      obtain rfl : m = m' := Option.some.inj (hmodel.symm.trans (hown ▸ hkey))
      obtain ⟨quotaGb', pct, hsame, hpct, hvalue⟩ := hreports.quota hquantity
      obtain rfl : quotaGb = quotaGb' := Option.some.inj (hquota.symm.trans hsame)
      show (Double.fin 100).le <$> LinkModel.quotaUsedPct rd quotaGb m.bytesCarried = _
      rw [hpct]
      exact congrArg Except.ok (not_le_of_reported hvalue hlt hthreshold)

end Agreement

section Lookup
variable {scenario : Scenario}

theorem links_get? (hids : (scenario.bundle.links.map (·.id)).Nodup) {link : Link}
    (hlink : link ∈ scenario.bundle.links) : scenario.links.get? link.id = some link := by
  rw [Dict.get?_eq_some, Scenario.links, Dict.ofEntries_items]
  · exact List.mem_map_of_mem hlink
  · rw [List.map_map]
    exact hids

theorem classes_get? (hids : (scenario.bundle.trafficClasses.map (·.id)).Nodup)
    {tclass : TrafficClass} (hclass : tclass ∈ scenario.bundle.trafficClasses) :
    scenario.classes.get? tclass.id = some tclass := by
  rw [Dict.get?_eq_some, Scenario.classes, Dict.ofEntries_items]
  · exact List.mem_map_of_mem hclass
  · rw [List.map_map]
    exact hids

end Lookup

section Judged
variable {rd : ℚ → Double} {ρ : Type} {generator : Random ρ} {rng rng' : ρ} {rt : Runtime}
  {scenario : Scenario} {fleet : LinkFleet} {evidence : EvidenceSnapshot} {now : DateTime}
  {siteId : String} {degraded : Bool} {decision : EligibilityDecision} {atS : Int}
  {trueRtt : List (String × Double)}

/-- Of a choice that is permitted the oracle finds a missed latency at most. -/
theorem permitted_found (hguarded : Guarded scenario.bundle fleet)
    (hreported : fleet.step rd generator now rng = .ok (evidence.observations, rng'))
    (hdecide : decide rt scenario.bundle evidence now siteId degraded = .ok decision)
    {classId linkId : String} (hpermitted : linkId ∈ decision.permittedFor classId) :
    ∃ found, checkChoice rd atS scenario.links scenario.classes fleet trueRtt classId linkId =
      .ok found ∧ ∀ v ∈ found, v.requirement = latencyMissed := by
  obtain ⟨tclass, hclass, rfl, link, hlink, rfl, hadmits⟩ := permitted_admits hdecide hpermitted
  obtain ⟨missed, hmissed⟩ := missesLatency_returns tclass (trueRtt.lookup link.id)
  have hspent := not_spent hguarded hreported hlink hadmits
  refine ⟨_, checkChoice_ok.mpr ⟨link, tclass, missed, false, links_get? hguarded.linkIds hlink,
    classes_get? hguarded.classIds hclass, hmissed, hspent, rfl⟩, ?_⟩
  intro v hv
  obtain ⟨requirement, hrequirement, rfl⟩ := List.mem_map.mp hv
  rcases mem_requirements.mp hrequirement with hforbidden | ⟨rfl, -⟩ | ⟨-, hfalse⟩
  · exact absurd hforbidden (not_forbidden hguarded hclass hadmits)
  · rfl
  · cases hfalse

theorem oracle_agrees (hguarded : Guarded scenario.bundle fleet)
    (hreported : fleet.step rd generator now rng = .ok (evidence.observations, rng'))
    (hdecide : decide rt scenario.bundle evidence now siteId degraded = .ok decision) :
    (∀ choices : Choices,
      (∀ classId linkId, (classId, some linkId) ∈ choices →
        linkId ∈ decision.permittedFor classId) →
      ∃ found, checkViolations rd atS scenario.links scenario.classes fleet trueRtt choices =
        .ok found ∧ ∀ v ∈ found, v.requirement = latencyMissed) ∧
    ∀ classId linkId found,
      checkChoice rd atS scenario.links scenario.classes fleet trueRtt classId linkId = .ok found →
      (∃ v ∈ found, v.requirement = meteredPath ∨ v.requirement = leftJurisdiction ∨
        v.requirement = unencryptedPath) → linkId ∉ decision.permittedFor classId := by
  constructor
  · intro choices hinside
    obtain ⟨found, hfound⟩ : ∃ found, checkViolations rd atS scenario.links scenario.classes fleet
        trueRtt choices = .ok found := by
      refine checkViolations_returns ?_
      intro classId linkId hchoice
      obtain ⟨found, hfound, -⟩ :=
        permitted_found hguarded hreported hdecide (hinside classId linkId hchoice)
      exact ⟨found, hfound⟩
    refine ⟨found, hfound, ?_⟩
    intro v hv
    obtain ⟨classId, linkId, one, hchoice, hone, hv⟩ := mem_checkViolations hfound hv
    obtain ⟨one', hone', honly⟩ :=
      permitted_found hguarded hreported hdecide (hinside classId linkId hchoice)
    obtain rfl : one = one' := Except.ok.inj (hone.symm.trans hone')
    exact honly v hv
  · rintro classId linkId found hfound ⟨v, hv, hstated⟩ hpermitted
    obtain ⟨found', hfound', honly⟩ := permitted_found hguarded hreported hdecide hpermitted
    obtain rfl : found = found' := Except.ok.inj (hfound.symm.trans hfound')
    rw [honly v hv] at hstated
    exact absurd hstated (by decide)

end Judged

namespace Sample

/-- A rule for each requirement, and one for each allowance. -/
def guarded : Scenario :=
  { scenario [] with
    bundle := { bundle 1 with
      rules := [.metered "R-METERED" "bulk", .jurisdiction "R-JURISDICTION" "bulk",
        .encryption "R-ENCRYPTION" "bulk", .quota "R-LTE" "lte" ⟨.float (.fin 100), rfl⟩,
        .quota "R-SATELLITE" "satellite" ⟨.float (.fin 90), rfl⟩] } }

theorem guarded_bundle : Guarded guarded.bundle guarded.fleet where
  keyed key m hm := by
    have hitem := Dict.get?_eq_some.mp hm
    simp [guarded, scenario, Dict.ofEntries_items, fiberModel, lteModel] at hitem
    rcases hitem with ⟨rfl, rfl⟩ | ⟨rfl, rfl⟩ <;> rfl
  linkIds := by decide
  classIds := by decide
  types link hlink m hm type htype := by
    rcases List.mem_cons.mp hlink with rfl | hlink
    · obtain rfl := Option.some.inj hm
      exact Option.some.inj htype
    · obtain rfl := List.mem_singleton.mp hlink
      obtain rfl := Option.some.inj hm
      exact Option.some.inj htype
  metered c hc := by
    obtain rfl := List.mem_singleton.mp hc
    exact ⟨_, .head _⟩
  jurisdiction c hc := by
    obtain rfl := List.mem_singleton.mp hc
    exact ⟨_, .tail _ (.head _)⟩
  encryption c hc := by
    obtain rfl := List.mem_singleton.mp hc
    exact ⟨_, .tail _ (.tail _ (.head _))⟩
  quota type htype := by
    rcases htype with rfl | rfl
    · exact ⟨_, _, .tail _ (.tail _ (.tail _ (.head _))), by norm_num [Num.toRat]⟩
    · exact ⟨_, _, .tail _ (.tail _ (.tail _ (.tail _ (.head _)))), by norm_num [Num.toRat]⟩

end Sample

/-- The agreement a minute past noon over a fiber and a metered link. -/
theorem oracle_agrees_sample : ∃ evidence rng decision,
    Sample.guarded.fleet.step Double.nearest Sample.draws (Sample.clock 60)
      (Sample.draws.seeded 0) = .ok (evidence.observations, rng) ∧
    decide standIn Sample.guarded.bundle evidence (Sample.clock 60) "site-1" = .ok decision ∧
    (∀ choices : Choices,
      (∀ classId linkId, (classId, some linkId) ∈ choices →
        linkId ∈ decision.permittedFor classId) →
      ∃ found, checkViolations Double.nearest 0 Sample.guarded.links Sample.guarded.classes
        Sample.guarded.fleet [] choices = .ok found ∧ ∀ v ∈ found, v.requirement = latencyMissed) ∧
    ∀ classId linkId found,
      checkChoice Double.nearest 0 Sample.guarded.links Sample.guarded.classes
        Sample.guarded.fleet [] classId linkId = .ok found →
      (∃ v ∈ found, v.requirement = meteredPath ∨ v.requirement = leftJurisdiction ∨
        v.requirement = unencryptedPath) → linkId ∉ decision.permittedFor classId := by
  obtain ⟨⟨observations, rng⟩, hreported⟩ := isOk_iff.mp (show (Sample.guarded.fleet.step
    Double.nearest Sample.draws (Sample.clock 60) (Sample.draws.seeded 0)).isOk = true by
      decide +kernel)
  obtain ⟨decision, hdecide⟩ : ∃ decision, decide standIn Sample.guarded.bundle ⟨observations⟩
      (Sample.clock 60) "site-1" = .ok decision := decide_returns (Sample.validUntil_minute rfl)
  exact ⟨⟨observations⟩, rng, decision, hreported, hdecide,
    oracle_agrees Sample.guarded_bundle hreported hdecide⟩

end Pilotfish
