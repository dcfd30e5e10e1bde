import Pilotfish.GovernedRuns

/-!
# The scenarios of the comparison

Five situations over one site: four links, three classes, and a policy that has a rule for every
demand of a class and for every allowance.

Results:
1. `bundle_shipped`: the scenarios have the bundle of their validity.
2. `covers_policy`: the policy covers the site, whatever its allowance and its validity.
3. `strictest_policy`: no class forbids a link that its first class may use.
-/

namespace Pilotfish
open Python

/-- A scenario, with what its results are filed under. -/
structure NamedScenario extends Scenario where
  name : String
  siteId : String

namespace Scenarios

/-! ## The site -/

def megabyte : Int := 10 ^ 6

def fiber0 : Link := ⟨"fiber0", "fiber", false, true, ["NO"], "local-isp"⟩

def lte0 : Link := ⟨"lte0", "lte", true, false, ["NO"], "mno-a"⟩

def sat0 : Link := ⟨"sat0", "satellite", true, false, ["NO", "US"], "leo"⟩

def fso0 : Link := ⟨"fso0", "fso", false, true, ["NO"], "self"⟩

def links : List Link := [fiber0, lte0, sat0, fso0]

def bulk : TrafficClass := { TrafficClass.ofId "bulk" with allowMetered := false }

def realtime : TrafficClass :=
  { TrafficClass.ofId "realtime" with maxRttMs := some (.ofRat 120) }

def health : TrafficClass := { TrafficClass.ofId "health" with
  maxRttMs := some (.ofRat 250)
  allowedJurisdictions := some ["NO"]
  requiresEncryption := true }

def classes : List TrafficClass := [bulk, realtime, health]

def rules : List Rule := [
  .linkDown "R-DOWN",
  .maxRtt "R-RTT-REALTIME" "realtime",
  .maxRtt "R-RTT-HEALTH" "health",
  .metered "R-METER-BULK" "bulk",
  .quota "R-QUOTA-LTE" "lte" (.ofRat 90),
  .quota "R-QUOTA-SAT" "satellite" (.ofRat 95),
  .evidenceFreshness "R-FSO-WEATHER" "fso" "visibility_m" (.ofRat 600),
  .jurisdiction "R-JUR-HEALTH" "health",
  .encryption "R-ENC-HEALTH" "health"]

/-- What is published from noon to an instant. -/
def policy (notAfter : DateTime) (decisionTtlS : Int) : PolicyBundle where
  bundleId := "sim-policy"
  authorityId := "authority-1"
  sequence := 1
  issuedAt := T0
  notAfter := notAfter
  decisionTtlS := decisionTtlS
  links := links
  trafficClasses := classes
  rules := rules

def bundle (validityS : Int := 1800) (decisionTtlS : Int := 120) : Except Exc PolicyBundle := do
  return policy (← T0.add (← timedeltaSeconds validityS)) decisionTtlS

def fleet (quotaGb : Double := .fin 10) : LinkFleet where
  models := .ofEntries [
    ("fiber0", fiberModel "fiber0"),
    ("lte0", lteModel "lte0" quotaGb),
    ("sat0", satelliteModel "sat0"),
    ("fso0", fsoModel "fso0")]

def traffic : Dict String Int :=
  .ofEntries [("bulk", 2 * megabyte), ("realtime", 200000), ("health", 100000)]

/-! ## What goes wrong -/

def halfHour : DateTime := ⟨1787918400000000 + 1800 * 1000000, by decide, by decide⟩

def quarterHour : DateTime := ⟨1787918400000000 + 900 * 1000000, by decide, by decide⟩

def plainFailover : NamedScenario where
  name := "plain-failover"
  siteId := "sim-site"
  bundle := policy halfHour 120
  fleet := fleet (.fin 1000)
  trafficBytesPerS := traffic
  events := [⟨600, .linkDown, "fiber0"⟩, ⟨1800, .linkUp, "fiber0"⟩]

def quotaSqueeze : NamedScenario where
  name := "quota-squeeze"
  siteId := "sim-site"
  bundle := policy halfHour 120
  fleet := fleet (.fin 2)
  trafficBytesPerS := traffic
  events := [⟨300, .linkDown, "fiber0"⟩, ⟨900, .fog, "fso0"⟩, ⟨3000, .linkUp, "fiber0"⟩]

def regulated : NamedScenario where
  name := "regulated-health-traffic"
  siteId := "sim-site"
  bundle := policy halfHour 120
  fleet := fleet (.fin 1000)
  trafficBytesPerS := traffic
  events := [⟨600, .linkDown, "fiber0"⟩, ⟨600, .fog, "fso0"⟩, ⟨2400, .clear, "fso0"⟩,
    ⟨3000, .linkUp, "fiber0"⟩]

/-- Fog and clear weather by turns, every two minutes. -/
def flappy : NamedScenario where
  name := "flapping-fso"
  siteId := "sim-site"
  bundle := policy halfHour 120
  fleet := fleet (.fin 1000)
  trafficBytesPerS := traffic
  events := (List.range' 120 29 120).map fun second : Nat =>
    ⟨second, if second / 120 % 2 = 0 then .fog else .clear, "fso0"⟩

def authorityBlackout : NamedScenario where
  name := "authority-blackout"
  siteId := "sim-site"
  bundle := policy quarterHour 120
  fleet := fleet (.fin 1000)
  trafficBytesPerS := traffic
  events := [⟨600, .authorityUnreachable, ""⟩, ⟨1200, .linkDown, "fiber0"⟩,
    ⟨2400, .linkUp, "fiber0"⟩, ⟨3000, .authorityReachable, ""⟩]

def allScenarios : List NamedScenario :=
  [plainFailover, quotaSqueeze, regulated, flappy, authorityBlackout]

/-- Each has the bundle that is built for its validity. -/
theorem bundle_shipped {scenario : NamedScenario} (h : scenario ∈ allScenarios) :
    bundle = .ok scenario.bundle ∨ bundle 900 = .ok scenario.bundle := by
  have hbuilt {validityS : Int} {notAfter : DateTime}
      (hdelta : timedeltaSeconds validityS = .ok (validityS * 1000000))
      (hend : notAfter.us = T0.us + validityS * 1000000) :
      bundle validityS = .ok (policy notAfter 120) :=
    bind_eq_ok_iff.mpr ⟨_, hdelta, bind_eq_ok_iff.mpr ⟨_, DateTime.ofUs_eq_ok.mpr hend, rfl⟩⟩
  simp only [allScenarios, List.mem_cons, List.not_mem_nil, or_false] at h
  rcases h with rfl | rfl | rfl | rfl | rfl
  · exact .inl (hbuilt rfl rfl)
  · exact .inl (hbuilt rfl rfl)
  · exact .inl (hbuilt rfl rfl)
  · exact .inl (hbuilt rfl rfl)
  · exact .inr (hbuilt rfl rfl)

/-! ## What the policy sees to -/

section Policy
variable (notAfter : DateTime) (decisionTtlS : Int) (quotaGb : Double)

theorem fleet_items : (fleet quotaGb).models.items = [
    ("fiber0", fiberModel "fiber0"),
    ("lte0", lteModel "lte0" quotaGb),
    ("sat0", satelliteModel "sat0"),
    ("fso0", fsoModel "fso0")] :=
  Dict.ofEntries_items (by simp)

theorem keyed_fleet : (fleet quotaGb).Keyed := by
  intro key m hm
  have hitem := Dict.get?_eq_some.mp hm
  rw [fleet_items] at hitem
  simp only [List.mem_cons, List.not_mem_nil, or_false] at hitem
  rcases hitem with h | h | h | h <;> cases h <;> rfl

theorem covers_policy : Covers (policy notAfter decisionTtlS) (fleet quotaGb) where
  keyed := keyed_fleet quotaGb
  linkIds := (by decide : (links.map (·.id)).Nodup)
  classIds := (by decide : (classes.map (·.id)).Nodup)
  types := by
    intro link hlink m hm type htype
    have hmodel := Dict.get?_eq_some.mp hm
    rw [fleet_items] at hmodel
    simp only [policy, links, List.mem_cons, List.not_mem_nil, or_false] at hlink
    rcases hlink with rfl | rfl | rfl | rfl
    all_goals
      simp [fiber0, lte0, sat0, fso0] at hmodel
      subst hmodel
      exact Option.some.inj htype
  metered := by
    intro c hc hforbids
    simp only [policy, classes, List.mem_cons, List.not_mem_nil, or_false] at hc
    rcases hc with rfl | rfl | rfl
    · exact ⟨"R-METER-BULK", by simp [policy, rules, bulk, TrafficClass.ofId]⟩
    · cases hforbids
    · cases hforbids
  jurisdiction := by
    intro c hc hlimits
    simp only [policy, classes, List.mem_cons, List.not_mem_nil, or_false] at hc
    rcases hc with rfl | rfl | rfl
    · cases hlimits
    · cases hlimits
    · exact ⟨"R-JUR-HEALTH", by simp [policy, rules, health, TrafficClass.ofId]⟩
  encryption := by
    intro c hc hrequires
    simp only [policy, classes, List.mem_cons, List.not_mem_nil, or_false] at hc
    rcases hc with rfl | rfl | rfl
    · cases hrequires
    · cases hrequires
    · exact ⟨"R-ENC-HEALTH", by simp [policy, rules, health, TrafficClass.ofId]⟩
  quota := by
    rintro type (rfl | rfl)
    · exact ⟨"R-QUOTA-LTE", _, by simp [policy, rules]; rfl, by norm_num⟩
    · exact ⟨"R-QUOTA-SAT", _, by simp [policy, rules]; rfl, by norm_num⟩

theorem reissuable_policy {validity : Int}
    (hvalidity : notAfter.us - T0.us = validity * 1000000) (hpositive : 1 ≤ validity) :
    Reissuable (policy notAfter decisionTtlS) validity where
  issuer := rfl
  classIds := (by decide : (classes.map (·.id)).Nodup)
  directives := ⟨rules, rfl⟩
  whole := hvalidity
  positive := hpositive

/-- The bulk class comes first and forbids the metered links, and they are all that any class
forbids. -/
theorem strictest_policy : FirstStrictest (policy notAfter decisionTtlS) := by
  intro first hfirst c hc link hlink requirement hforbidden
  obtain rfl : bulk = first := by
    have hhead : (sortedClasses classes).head? = some bulk := by rfl
    exact Option.some.inj (hhead.symm.trans hfirst)
  refine ⟨meteredPath, .metered rfl ?_⟩
  have hplain : ∀ link ∈ links, link.encryptedBelow = false → link.metered = true := by decide
  have habroad : ∀ link ∈ links,
      (∃ j ∈ link.jurisdictions, j ∉ ["NO"]) ∨ link.jurisdictions = [] → link.metered = true := by
    decide
  have hallowed : ∀ c ∈ classes, ∀ allowed, c.allowedJurisdictions = some allowed →
      allowed = ["NO"] := by
    intro c hc allowed hlimits
    simp only [classes, List.mem_cons, List.not_mem_nil, or_false] at hc
    rcases hc with rfl | rfl | rfl
    · cases hlimits
    · cases hlimits
    · exact (Option.some.inj hlimits).symm
  cases hforbidden with
  | metered _ hmetered => exact hmetered
  | jurisdiction hlimits houtside =>
    rw [hallowed c hc _ hlimits] at houtside
    exact habroad link hlink houtside
  | encryption _ hopen => exact hplain link hlink hopen

end Policy

end Scenarios

end Pilotfish
