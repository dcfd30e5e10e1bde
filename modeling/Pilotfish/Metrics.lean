import Pilotfish.Links

/-!
# What is measured

The violation oracle does not consult policy. It reads the true simulated state of a link and the
stated requirement of a traffic class.

Results:
1. `mem_requirements`: what the oracle finds about one choice, requirement by requirement.
2. `mem_checkViolations`: what it reports over the choices of a step.
-/

namespace Pilotfish
open Python

/-- A class in one step, sent somewhere its stated requirement forbade. -/
structure Violation where
  atS : Int
  classId : String
  linkId : String
  requirement : String
deriving DecidableEq

abbrev Choices := List (String × Option String)

def meteredPath : String := "metered path used by a class that forbids it"
def leftJurisdiction : String := "traffic left the permitted jurisdiction"
def unencryptedPath : String := "unencrypted path used by a class that requires encryption"
def latencyMissed : String := "latency requirement missed"
def spentAllowance : String := "carried over a spent allowance"

section Oracle
variable (rd : ℚ → Double)

/-- An allowance that is used up; only an LTE or a satellite model has one. -/
def LinkModel.spent (m : LinkModel) : Except Exc Bool :=
  match m.quotaGb with
  | none => .ok false
  | some quotaGb => (Double.fin 100).le <$> LinkModel.quotaUsedPct rd quotaGb m.bytesCarried

/-- The true latency of a link is above what a class allows. -/
def missesLatency (tclass : TrafficClass) (actual : Option Double) : Except Exc Bool :=
  match tclass.maxRttMs, actual with
  | some maxRttMs, some actual => (Value.float actual).gt maxRttMs.value
  | _, _ => .ok false

/-- The allowance of what is under a link id is used up. -/
def LinkFleet.spent (fleet : LinkFleet) (linkId : String) : Except Exc Bool :=
  match fleet.models.get? linkId with
  | none => .ok false
  | some model => model.spent rd

/-- What a class requires and a link does not give it, in the order of the checks. -/
def requirements (link : Link) (tclass : TrafficClass) (missed spent : Bool) : List String :=
  let metered := if !tclass.allowMetered && link.metered then [meteredPath] else []
  let jurisdiction :=
    match tclass.allowedJurisdictions with
    | none => []
    | some allowed =>
        let outside := link.jurisdictions.filter (· ∉ allowed)
        if outside ≠ [] ∨ link.jurisdictions = [] then [leftJurisdiction] else []
  let encryption :=
    if tclass.requiresEncryption && !link.encryptedBelow then [unencryptedPath] else []
  let latency := if missed then [latencyMissed] else []
  let quota := if spent then [spentAllowance] else []
  metered ++ jurisdiction ++ encryption ++ latency ++ quota

/-- Was this choice allowed, given what was actually true? -/
def checkChoice (atS : Int) (links : Dict String Link) (classes : Dict String TrafficClass)
    (fleet : LinkFleet) (trueRtt : List (String × Double)) (classId linkId : String) :
    Except Exc (List Violation) := do
  let link ← getKey links linkId
  let tclass ← getKey classes classId
  let missed ← missesLatency tclass (trueRtt.lookup linkId)
  let spent ← fleet.spent rd linkId
  return (requirements link tclass missed spent).map (⟨atS, classId, linkId, ·⟩)

/-- Ground truth over the choices of a step. -/
def checkViolations (atS : Int) (links : Dict String Link) (classes : Dict String TrafficClass)
    (fleet : LinkFleet) (trueRtt : List (String × Double)) :
    Choices → Except Exc (List Violation)
  | [] => .ok []
  | (_, none) :: choices => checkViolations atS links classes fleet trueRtt choices
  | (classId, some linkId) :: choices => do
      let found ← checkChoice rd atS links classes fleet trueRtt classId linkId
      return found ++ (← checkViolations atS links classes fleet trueRtt choices)

end Oracle

/-- What was the case in one step. -/
structure Frame where
  atS : Int
  choices : Choices
  up : List (String × Bool)
  authorityReachable : Bool

/-- The measures of a run. -/
structure RunResult where
  steps : Nat := 0
  violations : List Violation := []
  downtimeS : Int := 0
  refusedS : Int := 0
  degradedS : Int := 0
  flaps : Nat := 0
  cost : Double := .fin 0
  frames : List Frame := []

/-- Class-seconds with no path: no link up, or none that policy allowed. -/
def RunResult.unservedS (result : RunResult) : Int := result.downtimeS + result.refusedS

/-! ## What the oracle finds -/

/-- What a class states that it requires of any link, and a link does not give it. -/
@[mk_iff]
inductive Forbidden (tclass : TrafficClass) (link : Link) : String → Prop
  | metered : tclass.allowMetered = false → link.metered = true →
      Forbidden tclass link meteredPath
  | jurisdiction {allowed : List String} : tclass.allowedJurisdictions = some allowed →
      (∃ j ∈ link.jurisdictions, j ∉ allowed) ∨ link.jurisdictions = [] →
      Forbidden tclass link leftJurisdiction
  | encryption : tclass.requiresEncryption = true → link.encryptedBelow = false →
      Forbidden tclass link unencryptedPath

theorem mem_requirements {link : Link} {tclass : TrafficClass} {missed spent : Bool}
    {requirement : String} : requirement ∈ requirements link tclass missed spent ↔
    Forbidden tclass link requirement ∨ requirement = latencyMissed ∧ missed = true ∨
      requirement = spentAllowance ∧ spent = true := by
  have hpart (b : Bool) (text : String) : requirement ∈ (if b = true then [text] else []) ↔
      requirement = text ∧ b = true := by
    cases b <;> simp
  have hjurisdiction : (requirement ∈ match tclass.allowedJurisdictions with
      | none => []
      | some allowed =>
          if link.jurisdictions.filter (· ∉ allowed) ≠ [] ∨ link.jurisdictions = [] then
            [leftJurisdiction] else []) ↔
      ∃ allowed, tclass.allowedJurisdictions = some allowed ∧
        ((∃ j ∈ link.jurisdictions, j ∉ allowed) ∨ link.jurisdictions = []) ∧
        requirement = leftJurisdiction := by
    cases tclass.allowedJurisdictions with
    | none => simp
    | some allowed =>
      have houtside : (link.jurisdictions.filter (· ∉ allowed) ≠ [] ∨ link.jurisdictions = []) ↔
          (∃ j ∈ link.jurisdictions, j ∉ allowed) ∨ link.jurisdictions = [] := by
        simp [List.filter_eq_nil_iff]
      simp only [houtside]
      split_ifs with hleft
      · simp [hleft]
      · simp [hleft]
  simp only [requirements, List.mem_append, hpart, hjurisdiction, forbidden_iff]
  grind

section Found
variable {rd : ℚ → Double} {atS : Int} {links : Dict String Link}
  {classes : Dict String TrafficClass} {fleet : LinkFleet} {trueRtt : List (String × Double)}

theorem getKey_eq_ok {α : Type} {d : Dict String α} {key : String} {v : α} :
    getKey d key = .ok v ↔ d.get? key = some v := by
  unfold getKey
  cases d.get? key with
  | none => simp
  | some w => simp

/-- A latency and a bound can be compared. -/
theorem missesLatency_returns (tclass : TrafficClass) (actual : Option Double) :
    ∃ missed, missesLatency tclass actual = .ok missed := by
  unfold missesLatency
  cases tclass.maxRttMs with
  | none => exact ⟨false, rfl⟩
  | some bound =>
    cases actual with
    | none => exact ⟨false, rfl⟩
    | some actual =>
      obtain ⟨value, hfinite⟩ := bound
      cases value with
      | bool b => exact ⟨_, rfl⟩
      | int n => exact ⟨_, rfl⟩
      | float x => exact ⟨_, rfl⟩
      | _ => simp [Value.isfinite, Value.typeError] at hfinite

theorem checkChoice_ok {classId linkId : String} {found : List Violation} :
    checkChoice rd atS links classes fleet trueRtt classId linkId = .ok found ↔
    ∃ link tclass missed spent, links.get? linkId = some link ∧ classes.get? classId = some tclass ∧
      missesLatency tclass (trueRtt.lookup linkId) = .ok missed ∧
      fleet.spent rd linkId = .ok spent ∧
      (requirements link tclass missed spent).map (⟨atS, classId, linkId, ·⟩) = found := by
  unfold checkChoice
  constructor
  · intro h
    obtain ⟨link, hlink, h⟩ := bind_eq_ok_iff.mp h
    obtain ⟨tclass, hclass, h⟩ := bind_eq_ok_iff.mp h
    obtain ⟨missed, hmissed, h⟩ := bind_eq_ok_iff.mp h
    obtain ⟨spent, hspent, h⟩ := bind_eq_ok_iff.mp h
    exact ⟨link, tclass, missed, spent, getKey_eq_ok.mp hlink, getKey_eq_ok.mp hclass, hmissed,
      hspent, Except.ok.inj h⟩
  · rintro ⟨link, tclass, missed, spent, hlink, hclass, hmissed, hspent, rfl⟩
    exact bind_eq_ok_iff.mpr ⟨link, getKey_eq_ok.mpr hlink, bind_eq_ok_iff.mpr ⟨tclass,
      getKey_eq_ok.mpr hclass, bind_eq_ok_iff.mpr ⟨missed, hmissed, bind_eq_ok_iff.mpr
        ⟨spent, hspent, rfl⟩⟩⟩⟩

theorem checkViolations_returns {choices : Choices}
    (h : ∀ classId linkId, (classId, some linkId) ∈ choices →
      ∃ found, checkChoice rd atS links classes fleet trueRtt classId linkId = .ok found) :
    ∃ found, checkViolations rd atS links classes fleet trueRtt choices = .ok found := by
  induction choices with
  | nil => exact ⟨[], rfl⟩
  | cons choice choices ih =>
    obtain ⟨more, hmore⟩ := ih fun classId linkId hchoice =>
      h classId linkId (List.mem_cons_of_mem _ hchoice)
    obtain ⟨classId, linkId⟩ := choice
    cases linkId with
    | none => exact ⟨more, hmore⟩
    | some linkId =>
      obtain ⟨found, hfound⟩ := h classId linkId List.mem_cons_self
      exact ⟨found ++ more,
        bind_eq_ok_iff.mpr ⟨found, hfound, bind_eq_ok_iff.mpr ⟨more, hmore, rfl⟩⟩⟩

theorem mem_checkViolations {choices : Choices} {found : List Violation}
    (h : checkViolations rd atS links classes fleet trueRtt choices = .ok found) {v : Violation}
    (hv : v ∈ found) : ∃ classId linkId one, (classId, some linkId) ∈ choices ∧
      checkChoice rd atS links classes fleet trueRtt classId linkId = .ok one ∧ v ∈ one := by
  induction choices generalizing found with
  | nil =>
    cases h
    cases hv
  | cons choice choices ih =>
    have hrest {more : List Violation}
        (hmore : checkViolations rd atS links classes fleet trueRtt choices = .ok more)
        (hv : v ∈ more) : ∃ classId linkId one, (classId, some linkId) ∈ choice :: choices ∧
          checkChoice rd atS links classes fleet trueRtt classId linkId = .ok one ∧ v ∈ one := by
      obtain ⟨classId, linkId, found, hchoice, hfound⟩ := ih hmore hv
      exact ⟨classId, linkId, found, List.mem_cons_of_mem _ hchoice, hfound⟩
    obtain ⟨classId, linkId⟩ := choice
    cases linkId with
    | none => exact hrest h hv
    | some linkId =>
      obtain ⟨first, hfirst, h⟩ := bind_eq_ok_iff.mp h
      obtain ⟨more, hmore, h⟩ := bind_eq_ok_iff.mp h
      cases h
      rcases List.mem_append.mp hv with hv | hv
      · exact ⟨classId, linkId, first, List.mem_cons_self, hfirst, hv⟩
      · exact hrest hmore hv

end Found

end Pilotfish
