import Pilotfish.Rules

/-!
# Policy bundles and decisions

A bundle is a set of rules and the classes they bind to, with the authority and the sequence a
signature says nothing about. The floor is the bundle a site falls to when it has no valid one.

Results:
1. `linkInventoryHash_ok`: an inventory of declared links always has a hash.
2. `mem_floorClassRules`: which rules the floor makes of the classes.
3. `floorBundle_ok`: what the floor is, once it can be built.
-/

namespace Pilotfish
open Python

/-! ## Bundles -/

structure PolicyBundle (S : Type := String) (I : Type := Int) (N : Type := Num)
    (B : Type := Bool) where
  bundleId : S
  authorityId : S
  sequence : I
  issuedAt : DateTime
  notAfter : DateTime
  decisionTtlS : I
  links : List (Link S B)
  trafficClasses : List (TrafficClass S B)
  rules : List (Rule S N)

def floorBundleId : String := "floor"

/-- One link as the row its inventory is hashed by; the owner is not in it. -/
def inventoryRow {S B : Type} [OnWire S] [OnWire B] (link : Link S B) : Value :=
  .list [OnWire.value link.id, OnWire.value link.type, OnWire.value link.metered,
    OnWire.value link.encryptedBelow, .list (link.jurisdictions.map OnWire.value)]

/-- Identity of the link inventory a floor policy was written against. -/
def linkInventoryHash {S B : Type} [OnWire S] [OnWire B] (rt : Runtime) (links : List (Link S B)) :
    Except Exc String := do
  let rows ← Value.sorted (links.map inventoryRow)
  rt.hexdigest (.list rows)

theorem inventoryRow_lt (l m : Link) : ∃ b, (inventoryRow l).lt (inventoryRow m) = .ok b := by
  rw [inventoryRow, inventoryRow, Value.lt]
  refine Value.lts_ok ?_
  have hjur := Value.lts_str l.jurisdictions m.jurisdictions
  exact .cons ⟨_, rfl⟩ (.cons ⟨_, rfl⟩ (.cons ⟨_, rfl⟩ (.cons ⟨_, rfl⟩ (.cons hjur .nil))))

theorem plain_inventoryRow (link : Link) : (inventoryRow link).plain = true := by
  simp [inventoryRow, OnWire.value]

theorem plain_rows {links : List Link} {rows : List Value}
    (h : Value.sorted (links.map inventoryRow) = .ok rows) : (Value.list rows).plain = true := by
  rw [Value.plain_list, List.all_eq_true]
  intro row hrow
  obtain ⟨link, -, rfl⟩ := List.mem_map.mp ((Value.sorted_perm h).mem_iff.mp hrow)
  exact plain_inventoryRow link

theorem linkInventoryHash_ok (rt : Runtime) (links : List Link) :
    ∃ h, linkInventoryHash rt links = .ok h := by
  have hcompare : ∀ x ∈ links.map inventoryRow, ∀ y ∈ links.map inventoryRow,
      ∃ b, x.lt y = .ok b := by
    intro x hx y hy
    obtain ⟨l, -, rfl⟩ := List.mem_map.mp hx
    obtain ⟨m, -, rfl⟩ := List.mem_map.mp hy
    exact inventoryRow_lt l m
  obtain ⟨rows, hrows⟩ := Value.sorted_ok hcompare
  exact ⟨_, bind_eq_ok_iff.mpr ⟨rows, hrows,
    Runtime.hexdigest_eq_ok_iff.mpr ⟨rt.dumps_plain _ (plain_rows hrows), rfl⟩⟩⟩

/-! ## The floor -/

/-- Every constraint a class declares, as rules bound to it. -/
def floorRulesOf (tclass : TrafficClass) : List Rule :=
  Rule.metered ("FLOOR-METER-" ++ tclass.id) tclass.id ::
    (if tclass.maxRttMs.isSome then [Rule.maxRtt ("FLOOR-RTT-" ++ tclass.id) tclass.id] else []) ++
    (if tclass.allowedJurisdictions.isSome then
      [Rule.jurisdiction ("FLOOR-JUR-" ++ tclass.id) tclass.id] else []) ++
    (if tclass.requiresEncryption then [Rule.encryption ("FLOOR-ENC-" ++ tclass.id) tclass.id]
      else [])

def floorClassRules (classes : List TrafficClass) : List Rule := classes.flatMap floorRulesOf

/-- `TrafficClass(id="default", allow_metered=False)`. -/
def defaultClass : TrafficClass := { TrafficClass.ofId "default" with allowMetered := false }

/-- The classes a floor is built for: none given means one that tolerates nothing metered. -/
def floorClasses (trafficClasses : Option (List TrafficClass)) : List TrafficClass :=
  match trafficClasses with
  | some (c :: cs) => c :: cs
  | _ => [defaultClass]

def floorRules (classes : List TrafficClass) : List Rule :=
  Rule.linkDown "FLOOR-DOWN" ::
    Rule.linkType "FLOOR-FSO" "fso" "floor policy refuses free-space optics without an authority" ::
    floorClassRules classes

/-- The conservative policy a site falls to when it has no valid bundle. -/
def floorBundle (links : List Link) (now : Option DateTime := none)
    (authorityId : String := floorBundleId)
    (trafficClasses : Option (List TrafficClass) := none) : Except Exc PolicyBundle := do
  let issued := now.getD DateTime.epoch
  let classes := floorClasses trafficClasses
  let notAfter ← issued.add (3650 * 86400 * 1000000)
  return {
    bundleId := floorBundleId
    authorityId := authorityId
    sequence := 0
    issuedAt := issued
    notAfter := notAfter
    decisionTtlS := 60
    links := links
    trafficClasses := classes
    rules := floorRules classes }

theorem mem_floorClassRules {classes : List TrafficClass} {rule : Rule} :
    rule ∈ floorClassRules classes ↔ ∃ c ∈ classes, rule ∈ floorRulesOf c := List.mem_flatMap

theorem floorBundle_ok {links : List Link} {now : Option DateTime} {authorityId : String}
    {trafficClasses : Option (List TrafficClass)} {floor : PolicyBundle}
    (h : floorBundle links now authorityId trafficClasses = .ok floor) :
    floor.authorityId = authorityId ∧ floor.sequence = 0 ∧ floor.links = links ∧
    floor.trafficClasses = floorClasses trafficClasses ∧
    floor.rules = floorRules (floorClasses trafficClasses) := by
  simp only [floorBundle] at h
  cases hadd : (now.getD DateTime.epoch).add (3650 * 86400 * 1000000) with
  | error e =>
    rw [hadd] at h
    cases h
  | ok notAfter =>
    rw [hadd] at h
    cases h
    exact ⟨rfl, rfl, rfl, rfl, rfl⟩

theorem decisionTtlS_floorBundle {links : List Link} {now : Option DateTime} {authorityId : String}
    {trafficClasses : Option (List TrafficClass)} {floor : PolicyBundle}
    (h : floorBundle links now authorityId trafficClasses = .ok floor) :
    floor.decisionTtlS = 60 := by
  simp only [floorBundle, bind_eq_ok_iff] at h
  obtain ⟨notAfter, _, hret⟩ := h
  cases hret
  rfl

/-! ## Decisions -/

/-- The permitted set for one traffic class, and why the rest were removed. -/
structure ClassEligibility (S : Type := String) where
  classId : S
  permitted : List S
  exclusions : List (Exclusion S)

/-- One decision, bound to the exact bundle and evidence behind it. -/
structure EligibilityDecision (S : Type := String) (B : Type := Bool) where
  siteId : S
  decidedAt : DateTime
  validUntil : DateTime
  bundleHash : S
  evidenceHash : S
  degraded : B
  classes : List (ClassEligibility S)

/-- The permitted set of the first class of that id; nothing for a class not named. -/
def EligibilityDecision.permittedFor (decision : EligibilityDecision) (classId : String) :
    List String :=
  match decision.classes.find? (·.classId = classId) with
  | some cls => cls.permitted
  | none => []

end Pilotfish
