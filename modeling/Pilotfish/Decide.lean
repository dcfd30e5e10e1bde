import Pilotfish.Messages

/-!
# The decision function

Bundle, evidence and clock in, decision out. It raises only when the end of the decision's
validity does not fit into a datetime.

Results:
1. `mem_permitted`: a link id is permitted to a class exactly when some link of that id is
   admitted, which is when no rule gives a reason against it; `mem_exclusions`: it is excluded when
   some link of that id is not.
2. `decide_ok`: what a decision that was taken consists of.
-/

namespace Pilotfish
open Python

/-- `timedelta(seconds=n)`, in microseconds. -/
def timedeltaSeconds (n : Int) : Except Exc Int :=
  let days := n / 86400
  if days.natAbs ≤ 999999999 then .ok (n * 1000000)
  else if -2 ^ 31 ≤ days ∧ days < 2 ^ 31 then
    .error ⟨.OverflowError,
      "days=" ++ String.ofList (intText days) ++ "; must have magnitude <= 999999999"⟩
  else .error ⟨.OverflowError, "Python int too large to convert to C int"⟩

/-- The same for a number of any type, a float being rounded to the microsecond. -/
def timedelta : Value → Except Exc Int
  | .bool b => .ok (if b then 1000000 else 0)
  | .int n => timedeltaSeconds n
  | .float (.fin q) =>
      let us := DateTime.floatUs q
      -- the days that are checked are whole ones, whatever the fraction of the last second
      (timedeltaSeconds (us / 1000000)).map fun _ => us
  | .float .negZero => .ok 0
  | .float .nan => .error ⟨.ValueError, "cannot convert float NaN to integer"⟩
  | .float _ => .error ⟨.OverflowError, "cannot convert float infinity to integer"⟩
  | v => Value.typeError ("unsupported type for timedelta seconds component: " ++ v.typeName)

section Classes
variable (rules : List Rule) (evidence : EvidenceSnapshot) (now : DateTime)

/-- Every rule's reason against a link, in the order of the rules. -/
def reasons (tclass : TrafficClass) (link : Link) : List Exclusion :=
  rules.filterMap fun rule =>
    (rule.evaluate link tclass evidence now).map fun reason => ⟨link.id, rule.ruleId, reason⟩

/-- No rule gives a reason against the link. -/
def admits (tclass : TrafficClass) (link : Link) : Bool :=
  (reasons rules evidence now tclass link).isEmpty

def sortedLinks (links : List Link) : List Link := links.insertionSort fun l m => l.id ≤ m.id

def sortedClasses (classes : List TrafficClass) : List TrafficClass :=
  classes.insertionSort fun c d => c.id ≤ d.id

def exclusionKey (e : Exclusion) : String ×ₗ String := toLex (e.linkId, e.ruleId)

/-- One class: links with no reason against them are permitted, the others explained. -/
def eligibility (links : List Link) (tclass : TrafficClass) : ClassEligibility where
  classId := tclass.id
  permitted := ((sortedLinks links).filter (admits rules evidence now tclass)).map (·.id)
  exclusions := ((sortedLinks links).flatMap (reasons rules evidence now tclass)).insertionSort
    fun e f => exclusionKey e ≤ exclusionKey f

end Classes

/-- Every link starts as a candidate; rules take links out, never put them in. -/
def decide (rt : Runtime) (bundle : PolicyBundle) (evidence : EvidenceSnapshot) (now : DateTime)
    (siteId : String) (degraded : Bool := false) : Except Exc EligibilityDecision := do
  let evidence := evidence.asOf now
  let classes := (sortedClasses bundle.trafficClasses).map
    (eligibility bundle.rules evidence now bundle.links)
  let validUntil ← now.add (← timedeltaSeconds bundle.decisionTtlS)
  return {
    siteId := siteId
    decidedAt := now
    validUntil := validUntil
    bundleHash := bundle.hash rt
    evidenceHash := evidence.hash rt
    degraded := degraded
    classes := classes }

/-! ## What is permitted -/

section Permitted
variable {rules : List Rule} {evidence : EvidenceSnapshot} {now : DateTime} {tclass : TrafficClass}
  {link : Link} {links : List Link}

theorem admits_iff : admits rules evidence now tclass link = true ↔
    ∀ rule ∈ rules, rule.evaluate link tclass evidence now = none := by
  simp [admits, reasons, List.filterMap_eq_nil_iff]

theorem mem_sortedLinks : link ∈ sortedLinks links ↔ link ∈ links :=
  (List.perm_insertionSort _ links).mem_iff

theorem mem_sortedClasses {classes : List TrafficClass} :
    tclass ∈ sortedClasses classes ↔ tclass ∈ classes :=
  (List.perm_insertionSort _ classes).mem_iff

theorem mem_permitted {id : String} :
    id ∈ (eligibility rules evidence now links tclass).permitted ↔
    ∃ link ∈ links, link.id = id ∧ admits rules evidence now tclass link = true := by
  simp only [eligibility, List.mem_map, List.mem_filter, mem_sortedLinks]
  exact ⟨fun ⟨l, ⟨hl, ha⟩, hid⟩ => ⟨l, hl, hid, ha⟩, fun ⟨l, hl, hid, ha⟩ => ⟨l, ⟨hl, ha⟩, hid⟩⟩

/-- A link id is excluded exactly when some link of that id is not admitted. -/
theorem mem_exclusions {id : String} :
    (∃ e ∈ (eligibility rules evidence now links tclass).exclusions, e.linkId = id) ↔
    ∃ link ∈ links, link.id = id ∧ admits rules evidence now tclass link = false := by
  simp only [eligibility, (List.perm_insertionSort _ _).mem_iff, List.mem_flatMap, mem_sortedLinks]
  constructor
  · rintro ⟨e, ⟨link, hlink, he⟩, rfl⟩
    refine ⟨link, hlink, ?_, ?_⟩
    · obtain ⟨rule, -, hrule⟩ := List.mem_filterMap.mp he
      obtain ⟨reason, -, rfl⟩ := Option.map_eq_some_iff.mp hrule
      rfl
    · rw [admits, List.isEmpty_eq_false_iff]
      exact List.ne_nil_of_mem he
  · rintro ⟨link, hlink, rfl, hadmits⟩
    rw [admits, List.isEmpty_eq_false_iff] at hadmits
    obtain ⟨e, he⟩ := List.exists_mem_of_ne_nil _ hadmits
    obtain ⟨rule, -, hrule⟩ := List.mem_filterMap.mp he
    obtain ⟨reason, -, rfl⟩ := Option.map_eq_some_iff.mp hrule
    exact ⟨_, ⟨link, hlink, he⟩, rfl⟩

/-- Nothing is permitted exactly when no link is admitted. -/
theorem permitted_eq_nil : (eligibility rules evidence now links tclass).permitted = [] ↔
    ∀ link ∈ links, admits rules evidence now tclass link = false := by
  simp only [eligibility, List.map_eq_nil_iff, List.filter_eq_nil_iff, mem_sortedLinks,
    Bool.not_eq_true]

end Permitted

/-! ## What a decision consists of -/

/-- The end of a decision's validity. -/
def validUntil (bundle : PolicyBundle) (now : DateTime) : Except Exc DateTime := do
  now.add (← timedeltaSeconds bundle.decisionTtlS)

section Decision
variable {rt : Runtime} {bundle : PolicyBundle} {evidence : EvidenceSnapshot} {now : DateTime}
  {siteId : String} {degraded : Bool} {decision : EligibilityDecision}

theorem decide_eq : decide rt bundle evidence now siteId degraded =
    (validUntil bundle now).map fun until' => {
      siteId := siteId
      decidedAt := now
      validUntil := until'
      bundleHash := bundle.hash rt
      evidenceHash := (evidence.asOf now).hash rt
      degraded := degraded
      classes := (sortedClasses bundle.trafficClasses).map
        (eligibility bundle.rules (evidence.asOf now) now bundle.links) } := by
  simp only [decide, validUntil]
  cases timedeltaSeconds bundle.decisionTtlS with
  | error e => rfl
  | ok us => cases hadd : now.add us <;> simp [bind, Except.bind, hadd, Except.map, pure, Except.pure]

/-- A decision is taken when its validity has an end. -/
theorem decide_returns {until' : DateTime} (h : validUntil bundle now = .ok until') :
    ∃ decision, decide rt bundle evidence now siteId degraded = .ok decision := by
  rw [decide_eq, h]
  exact ⟨_, rfl⟩

theorem decide_ok (h : decide rt bundle evidence now siteId degraded = .ok decision) :
    decision.siteId = siteId ∧ decision.decidedAt = now ∧
    validUntil bundle now = .ok decision.validUntil ∧ decision.bundleHash = bundle.hash rt ∧
    decision.evidenceHash = (evidence.asOf now).hash rt ∧ decision.degraded = degraded ∧
    decision.classes = (sortedClasses bundle.trafficClasses).map
      (eligibility bundle.rules (evidence.asOf now) now bundle.links) := by
  rw [decide_eq] at h
  cases hv : validUntil bundle now with
  | error e => rw [hv] at h; cases h
  | ok until' =>
    rw [hv] at h
    cases h
    exact ⟨rfl, rfl, rfl, rfl, rfl, rfl, rfl⟩

/-- Every class of a decision comes from a class of the bundle. -/
theorem mem_classes (h : decide rt bundle evidence now siteId degraded = .ok decision)
    {cls : ClassEligibility} : cls ∈ decision.classes ↔
    ∃ c ∈ bundle.trafficClasses,
      eligibility bundle.rules (evidence.asOf now) now bundle.links c = cls := by
  rw [(decide_ok h).2.2.2.2.2.2, List.mem_map]
  simp only [mem_sortedClasses]

/-- The first entry of an id is made of the first class of that id. -/
theorem find_class (h : decide rt bundle evidence now siteId degraded = .ok decision)
    (classId : String) : decision.classes.find? (·.classId = classId) =
      ((sortedClasses bundle.trafficClasses).find? (·.id = classId)).map
        (eligibility bundle.rules (evidence.asOf now) now bundle.links) := by
  rw [(decide_ok h).2.2.2.2.2.2, List.find?_map]
  rfl

end Decision

end Pilotfish
