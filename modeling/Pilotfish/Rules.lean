import Pilotfish.Models

/-!
# Exclusion rules

Rules only ever take links out of the candidate set. Each of the nine kinds is a constructor
with the fields of its class, and `evaluate` returns the reason when the link is excluded.

Results:
1. `evaluate_linkDown` … `evaluate_evidenceFreshness`: when a rule that applies lets a link stay.
2. `evaluate_other_class`: a rule bound to another class says nothing.
3. `evaluate_congr`, `evaluate_absent`: a rule reads one measurement at most, and excludes where
   that is missing.
-/

namespace Pilotfish
open Python

/-- One link removed from one class's permitted set, with its reason. -/
structure Exclusion (S : Type := String) where
  linkId : S
  ruleId : S
  reason : S

inductive Rule (S : Type := String) (N : Type := Num)
  | linkDown (ruleId : S)
  | maxRtt (ruleId classId : S)
  | metered (ruleId classId : S)
  | quota (ruleId linkType : S) (thresholdPct : N)
  | evidenceFreshness (ruleId linkType quantity : S) (maxAgeS : N)
  | jurisdiction (ruleId classId : S)
  | encryption (ruleId classId : S)
  | linkType (ruleId linkType reasonText : S)
  | directive (ruleId linkId reasonText : S) (notAfter : DateTime)

namespace Rule

def ruleId {S N : Type} : Rule S N → S
  | linkDown ruleId => ruleId
  | maxRtt ruleId _ => ruleId
  | metered ruleId _ => ruleId
  | quota ruleId _ _ => ruleId
  | evidenceFreshness ruleId _ _ _ => ruleId
  | jurisdiction ruleId _ => ruleId
  | encryption ruleId _ => ruleId
  | linkType ruleId _ _ => ruleId
  | directive ruleId _ _ _ => ruleId

/-- The reason a link is excluded, or `none` when the rule does not apply. -/
def evaluate (rule : Rule) (link : Link) (tclass : TrafficClass) (evidence : EvidenceSnapshot)
    (now : DateTime) : Option String :=
  match rule with
  | linkDown _ =>
      match evidence.latest link.id "up" with
      -- missing evidence refuses: a link nobody has measured is not known to be up
      | none => some "no liveness observation"
      | some o => if o.value.toRat < 1 then some "observed down" else none
  | maxRtt _ classId =>
      if tclass.id ≠ classId then none
      else match tclass.maxRttMs with
        | none => none
        | some bound =>
            match evidence.latest link.id "rtt_ms" with
            | none => some ("no latency measurement, class requires <= " ++ bound.text ++ " ms")
            | some o =>
                if bound.toRat < o.value.toRat then
                  some ("rtt " ++ o.value.text ++ " ms exceeds " ++ bound.text ++ " ms")
                else none
  | metered _ classId =>
      if tclass.id ≠ classId ∨ tclass.allowMetered ∨ ¬link.metered then none
      else some "link is metered and the class does not permit metered paths"
  | quota _ type thresholdPct =>
      if link.type ≠ type then none
      else match evidence.latest link.id "quota_used_pct" with
        | none => some "quota consumption unknown"
        | some o =>
            if thresholdPct.toRat ≤ o.value.toRat then
              some ("quota at " ++ o.value.text ++ "% of allowance")
            else none
  | evidenceFreshness _ type quantity maxAgeS =>
      if link.type ≠ type then none
      else match evidence.ageS link.id quantity now with
        | none => some ("no " ++ quantity ++ " observation at all")
        | some age =>
            if maxAgeS.toRat < age then
              some (quantity ++ " evidence is stale: " ++ Num.fixed0 age ++ "s old, limit " ++
                maxAgeS.fixed ++ "s")
            else none
  | jurisdiction _ classId =>
      if tclass.id ≠ classId then none
      else match tclass.allowedJurisdictions with
        | none => none
        | some allowed =>
            -- no declaration is not a declaration of being everywhere
            if link.jurisdictions = [] then some "link jurisdiction is undeclared"
            else
              let disallowed := link.jurisdictions.filter fun j => j ∉ allowed
              if disallowed = [] then none
              else some ("crosses disallowed jurisdiction " ++
                String.intercalate ", " (disallowed.insertionSort (· ≤ ·)))
  | encryption _ classId =>
      if tclass.id ≠ classId ∨ ¬tclass.requiresEncryption then none
      else if ¬link.encryptedBelow then
        some "class requires encryption below and the link does not provide it"
      else none
  | linkType _ type reasonText =>
      if link.type ≠ type then none else some reasonText
  | directive _ linkId reasonText notAfter =>
      if link.id ≠ linkId ∨ notAfter.us ≤ now.us then none
      else some ("authority directive: " ++ reasonText)

/-! ## When a rule lets a link stay -/

section Stay
variable {link : Link} {tclass : TrafficClass} {evidence : EvidenceSnapshot} {now : DateTime}
  {ruleId : String}

theorem evaluate_linkDown : (linkDown ruleId).evaluate link tclass evidence now = none ↔
    ∃ o, evidence.latest link.id "up" = some o ∧ 1 ≤ o.value.toRat := by
  simp only [evaluate]
  cases evidence.latest link.id "up" with
  | none => simp
  | some o => simp

theorem evaluate_maxRtt : (maxRtt ruleId tclass.id).evaluate link tclass evidence now = none ↔
    ∀ bound, tclass.maxRttMs = some bound →
      ∃ o, evidence.latest link.id "rtt_ms" = some o ∧ o.value.toRat ≤ bound.toRat := by
  simp only [evaluate, ne_eq, not_true_eq_false, if_false]
  cases tclass.maxRttMs with
  | none => simp
  | some bound =>
    cases evidence.latest link.id "rtt_ms" with
    | none => simp
    | some o => simp

theorem evaluate_metered : (metered ruleId tclass.id).evaluate link tclass evidence now = none ↔
    (link.metered = true → tclass.allowMetered = true) := by
  simp only [evaluate, ne_eq, not_true_eq_false, false_or]
  cases tclass.allowMetered <;> cases link.metered <;> simp

theorem evaluate_jurisdiction :
    (jurisdiction ruleId tclass.id).evaluate link tclass evidence now = none ↔
    ∀ allowed, tclass.allowedJurisdictions = some allowed →
      link.jurisdictions ≠ [] ∧ ∀ j ∈ link.jurisdictions, j ∈ allowed := by
  simp only [evaluate, ne_eq, not_true_eq_false, if_false]
  cases tclass.allowedJurisdictions with
  | none => simp
  | some allowed =>
    by_cases hnil : link.jurisdictions = []
    · simp [hnil]
    · simp [hnil, List.filter_eq_nil_iff]

theorem evaluate_encryption :
    (encryption ruleId tclass.id).evaluate link tclass evidence now = none ↔
    (tclass.requiresEncryption = true → link.encryptedBelow = true) := by
  simp only [evaluate, ne_eq, not_true_eq_false, false_or]
  cases tclass.requiresEncryption <;> cases link.encryptedBelow <;> simp

theorem evaluate_linkType {type reason : String} :
    (linkType ruleId type reason).evaluate link tclass evidence now = none ↔ link.type ≠ type := by
  simp only [evaluate]
  split_ifs with h
  · simp [h]
  · simpa using h

theorem evaluate_quota {threshold : Num} :
    (quota ruleId link.type threshold).evaluate link tclass evidence now = none ↔
    ∃ o, evidence.latest link.id "quota_used_pct" = some o ∧ o.value.toRat < threshold.toRat := by
  simp only [evaluate, ne_eq, not_true_eq_false, if_false]
  cases evidence.latest link.id "quota_used_pct" with
  | none => simp
  | some o => simp

theorem evaluate_evidenceFreshness {quantity : String} {maxAgeS : Num} :
    (evidenceFreshness ruleId link.type quantity maxAgeS).evaluate link tclass evidence now = none ↔
    ∃ o, evidence.latest link.id quantity = some o ∧ o.ageS now ≤ maxAgeS.toRat := by
  simp only [evaluate, EvidenceSnapshot.ageS, ne_eq, not_true_eq_false, if_false]
  cases evidence.latest link.id quantity with
  | none => simp
  | some o => simp

/-- A rule bound to another class says nothing. -/
theorem evaluate_other_class {classId : String} (h : tclass.id ≠ classId) :
    (maxRtt ruleId classId).evaluate link tclass evidence now = none ∧
    (metered ruleId classId).evaluate link tclass evidence now = none ∧
    (jurisdiction ruleId classId).evaluate link tclass evidence now = none ∧
    (encryption ruleId classId).evaluate link tclass evidence now = none := by
  simp [evaluate, h]

end Stay

/-! ## What a rule reads -/

/-- The quantity a rule reads of a link, where it applies to the link and the class. -/
def reads (rule : Rule) (link : Link) (tclass : TrafficClass) : Option String :=
  match rule with
  | linkDown _ => some "up"
  | maxRtt _ classId =>
      if tclass.id ≠ classId ∨ tclass.maxRttMs.isNone then none else some "rtt_ms"
  | quota _ type _ => if link.type ≠ type then none else some "quota_used_pct"
  | evidenceFreshness _ type quantity _ => if link.type ≠ type then none else some quantity
  | _ => none

section Reads
variable {rule : Rule} {link : Link} {tclass : TrafficClass} {evidence evidence' : EvidenceSnapshot}
  {now : DateTime}

/-- Only the latest measurement of what a rule reads is in what it says. -/
theorem evaluate_congr (h : ∀ quantity, rule.reads link tclass = some quantity →
    evidence.latest link.id quantity = evidence'.latest link.id quantity) :
    rule.evaluate link tclass evidence now = rule.evaluate link tclass evidence' now := by
  cases rule with
  | linkDown ruleId => simp only [evaluate, h "up" rfl]
  | maxRtt ruleId classId =>
    by_cases hid : tclass.id = classId
    · cases hbound : tclass.maxRttMs with
      | none => simp only [evaluate, hbound]
      | some bound =>
        simp only [evaluate, hbound, h "rtt_ms" (by simp [reads, hid, hbound])]
    · simp only [evaluate, ne_eq, hid, not_false_eq_true, if_true]
  | quota ruleId type thresholdPct =>
    by_cases htype : link.type = type
    · simp only [evaluate, h "quota_used_pct" (by simp [reads, htype])]
    · simp only [evaluate, ne_eq, htype, not_false_eq_true, if_true]
  | evidenceFreshness ruleId type quantity maxAgeS =>
    by_cases htype : link.type = type
    · simp only [evaluate, EvidenceSnapshot.ageS, h quantity (by simp [reads, htype])]
    · simp only [evaluate, ne_eq, htype, not_false_eq_true, if_true]
  | metered ruleId classId => rfl
  | jurisdiction ruleId classId => rfl
  | encryption ruleId classId => rfl
  | linkType ruleId type reasonText => rfl
  | directive ruleId linkId reasonText notAfter => rfl

/-- A link is excluded where what a rule reads of it was not measured. -/
theorem evaluate_absent {quantity : String} (hreads : rule.reads link tclass = some quantity)
    (habsent : evidence.latest link.id quantity = none) :
    ∃ reason, rule.evaluate link tclass evidence now = some reason := by
  cases rule with
  | linkDown ruleId =>
    obtain rfl := Option.some.inj hreads
    simp [evaluate, habsent]
  | maxRtt ruleId classId =>
    simp only [reads] at hreads
    split_ifs at hreads with hskip
    obtain rfl := Option.some.inj hreads
    push Not at hskip
    obtain ⟨bound, hbound⟩ := Option.ne_none_iff_exists'.mp (by simpa using hskip.2)
    simp [evaluate, hskip.1, hbound, habsent]
  | quota ruleId type thresholdPct =>
    simp only [reads] at hreads
    split_ifs at hreads with hskip
    obtain rfl := Option.some.inj hreads
    simp [evaluate, hskip, habsent]
  | evidenceFreshness ruleId type quantity maxAgeS =>
    simp only [reads] at hreads
    split_ifs at hreads with hskip
    obtain rfl := Option.some.inj hreads
    simp [evaluate, hskip, EvidenceSnapshot.ageS, habsent]
  | metered ruleId classId => cases hreads
  | jurisdiction ruleId classId => cases hreads
  | encryption ruleId classId => cases hreads
  | linkType ruleId type reasonText => cases hreads
  | directive ruleId linkId reasonText notAfter => cases hreads

end Reads

end Rule

end Pilotfish
