import Pilotfish.Narrowing

/-!
# The floor against the policy it stands in for

The floor is made of a site's links and of what its traffic classes declare. A bundle may say
more than its classes do: which part of a quota may be used, how old a measurement may be, which
types of links are out, and what an authority directs.

Results:
1. `evaluate_of_floorAdmits`: of a link the floor admits, no rule about what a class declares says
   anything.
2. `floor_excludes_declared`: what the floor permits is permitted under the policy, unless one of
   the other rules excludes it.
3. `floor_within_iff`: the floor permits no more than the policy exactly when none of the other
   rules excludes what the floor admits.
-/

namespace Pilotfish
open Python

/-- A rule about something that no class declares and the floor does not refuse. -/
def Rule.beyondFloor : Rule → Bool
  | .quota _ _ _ => true
  | .evidenceFreshness _ _ _ _ => true
  | .linkType _ type _ => type != "fso"
  | .directive _ _ _ _ => true
  | _ => false

section
variable {evidence : EvidenceSnapshot} {now : DateTime} {c : TrafficClass} {l : Link}

/-- Bound to the class such a rule says what the class declares; bound to another it says
nothing. -/
theorem evaluate_of_floorAdmits (h : FloorAdmits evidence c l) {rule : Rule}
    (hrule : rule.beyondFloor = false) : rule.evaluate l c evidence now = none := by
  cases rule with
  | linkDown ruleId => exact Rule.evaluate_linkDown.mpr h.up
  | maxRtt ruleId classId =>
    by_cases hid : c.id = classId
    · subst hid
      exact Rule.evaluate_maxRtt.mpr h.rtt
    · exact (Rule.evaluate_other_class hid).1
  | metered ruleId classId =>
    by_cases hid : c.id = classId
    · subst hid
      exact Rule.evaluate_metered.mpr h.metered
    · exact (Rule.evaluate_other_class hid).2.1
  | jurisdiction ruleId classId =>
    by_cases hid : c.id = classId
    · subst hid
      exact Rule.evaluate_jurisdiction.mpr h.jurisdictions
    · exact (Rule.evaluate_other_class hid).2.2.1
  | encryption ruleId classId =>
    by_cases hid : c.id = classId
    · subst hid
      exact Rule.evaluate_encryption.mpr h.encryption
    · exact (Rule.evaluate_other_class hid).2.2.2
  | linkType ruleId type reasonText =>
    have htype : type = "fso" := by simpa [Rule.beyondFloor] using hrule
    rw [htype]
    exact Rule.evaluate_linkType.mpr h.type
  | quota ruleId type thresholdPct => cases hrule
  | evidenceFreshness ruleId type quantity maxAgeS => cases hrule
  | directive ruleId linkId reasonText notAfter => cases hrule

end

/-- One class under the floor and under the policy: a rule that excludes what the floor spares is
about something no class declares, and where there is none the policy permits what the floor
permits. -/
structure FloorNoWider (policy floor : PolicyBundle) (evidence : EvidenceSnapshot) (now : DateTime)
    (c : TrafficClass) (onFloor onPolicy : ClassEligibility) : Prop where
  floorEntry : Explains floor.rules evidence now policy.links c onFloor
  policyEntry : Explains policy.rules evidence now policy.links c onPolicy
  beyond : ∀ l ∈ policy.links, spares floor.rules evidence now c l = true →
    ∀ rule ∈ policy.rules, ∀ reason, rule.evaluate l c evidence now = some reason →
      rule.beyondFloor = true
  within : (∀ l ∈ policy.links, spares floor.rules evidence now c l = true →
      ∀ rule ∈ policy.rules, rule.beyondFloor = true → rule.evaluate l c evidence now = none) →
    onFloor.permitted.Sublist onPolicy.permitted

section
variable {rt : Runtime} {policy floor : PolicyBundle} {issued : Option DateTime}
  {authorityId siteId siteId' : String} {evidence : EvidenceSnapshot} {now : DateTime}
  {degraded degraded' : Bool} {onFloor onPolicy : EligibilityDecision}

theorem floorClasses_of_mem {classes : List TrafficClass} {c : TrafficClass} (h : c ∈ classes) :
    floorClasses (some classes) = classes := by
  cases classes with
  | nil => cases h
  | cons c cs => rfl

theorem floorNoWider_eligibility {c : TrafficClass} (hc : c ∈ policy.trafficClasses)
    (hrules : floor.rules = floorRules policy.trafficClasses) :
    FloorNoWider policy floor evidence now c (eligibility floor.rules evidence now policy.links c)
      (eligibility policy.rules evidence now policy.links c) := by
  have hadmits {l : Link} (h : spares floor.rules evidence now c l = true) :
      FloorAdmits evidence c l := by
    rw [hrules, ← admits_eq_spares] at h
    exact (admits_floorRules hc).mp h
  refine ⟨explains_eligibility, explains_eligibility, ?_, fun hbeyond => ?_⟩
  · intro l _ hspared rule _ reason hreason
    by_contra hkind
    rw [evaluate_of_floorAdmits (hadmits hspared) (Bool.eq_false_iff.mpr hkind)] at hreason
    cases hreason
  · refine permitted_sublist ?_
    intro l hl hspared
    rw [admits_eq_spares] at hspared
    rw [admits_iff]
    intro rule hrule
    cases hkind : rule.beyondFloor with
    | false => exact evaluate_of_floorAdmits (hadmits hspared) hkind
    | true => exact hbeyond l hl hspared rule hrule hkind

/-- The floor made of a policy's links and classes permits to each class what the policy permits,
but for what rules exclude that are about something no class declares. -/
theorem floor_excludes_declared
    (hfloor : IsFloor policy.links issued authorityId (some policy.trafficClasses) floor)
    (hF : decide rt floor evidence now siteId degraded = .ok onFloor)
    (hP : decide rt policy evidence now siteId' degraded' = .ok onPolicy) (i : Nat)
    (c : TrafficClass) (hc : (sortedClasses policy.trafficClasses)[i]? = some c) :
    ∃ floorEntry policyEntry, onFloor.classes[i]? = some floorEntry ∧
      onPolicy.classes[i]? = some policyEntry ∧
      FloorNoWider policy floor (evidence.asOf now) now c floorEntry policyEntry := by
  have hmem : c ∈ policy.trafficClasses := mem_sortedClasses.mp (List.mem_of_getElem? hc)
  obtain ⟨hlinks, hclasses, hrules⟩ := hfloor.fields
  rw [floorClasses_of_mem hmem] at hclasses hrules
  obtain ⟨-, -, -, -, -, -, hF⟩ := decide_ok hF
  obtain ⟨-, -, -, -, -, -, hP⟩ := decide_ok hP
  refine ⟨_, _, ?_, ?_, floorNoWider_eligibility hmem hrules⟩
  · rw [hF, hclasses, hlinks, List.getElem?_map, hc]
    rfl
  · rw [hP, List.getElem?_map, hc]
    rfl

/-! ## When the floor is within the policy -/

/-- No rule of the policy about what no class declares excludes the link; the floor admits it, or
none of the other rules does either. -/
structure Untouched (policy : PolicyBundle) (evidence : EvidenceSnapshot) (now : DateTime)
    (c : TrafficClass) (l : Link) : Prop where
  beyond : ∀ rule ∈ policy.rules, rule.beyondFloor = true → rule.evaluate l c evidence now = none
  declared : FloorAdmits evidence c l ∨
    ∀ rule ∈ policy.rules, rule.beyondFloor = false → rule.evaluate l c evidence now = none

theorem spares_iff_untouched {c : TrafficClass} {l : Link} :
    spares policy.rules evidence now c l = true ↔ Untouched policy evidence now c l := by
  rw [← admits_eq_spares, admits_iff]
  constructor
  · intro h
    exact ⟨fun rule hrule _ => h rule hrule, .inr fun rule hrule _ => h rule hrule⟩
  · rintro ⟨hbeyond, hdeclared⟩ rule hrule
    cases hkind : rule.beyondFloor with
    | true => exact hbeyond rule hrule hkind
    | false =>
      exact hdeclared.elim (evaluate_of_floorAdmits · hkind) fun hother => hother rule hrule hkind

theorem Explains.mem_permitted {rules : List Rule} {links : List Link} {c : TrafficClass}
    {entry : ClassEligibility} (h : Explains rules evidence now links c entry) {id : String} :
    id ∈ entry.permitted ↔ ∃ l ∈ links, l.id = id ∧ spares rules evidence now c l = true := by
  rw [h.permitted]
  simp only [List.mem_map, List.mem_filter, mem_sortedLinks]
  exact ⟨fun ⟨l, ⟨hl, hspared⟩, hid⟩ => ⟨l, hl, hid, hspared⟩,
    fun ⟨l, hl, hid, hspared⟩ => ⟨l, ⟨hl, hspared⟩, hid⟩⟩

theorem permitted_subset_iff {rules rules' : List Rule} {links : List Link} {c : TrafficClass}
    {entry entry' : ClassEligibility} (h : Explains rules evidence now links c entry)
    (h' : Explains rules' evidence now links c entry') : entry.permitted ⊆ entry'.permitted ↔
    ∀ l ∈ links, spares rules evidence now c l = true →
      ∃ l' ∈ links, l'.id = l.id ∧ spares rules' evidence now c l' = true := by
  constructor
  · intro hsubset l hl hspared
    exact h'.mem_permitted.mp (hsubset (h.mem_permitted.mpr ⟨l, hl, rfl, hspared⟩))
  · intro hspares id hid
    obtain ⟨l, hl, rfl, hspared⟩ := h.mem_permitted.mp hid
    exact h'.mem_permitted.mpr (hspares l hl hspared)

/-- The floor made of a policy's links and classes permits to a class what the policy permits exactly
when each link it admits, or another of that id, is untouched by the policy; where ids are distinct,
exactly when no rule about what no class declares excludes a link it admits. -/
theorem floor_within_iff
    (hfloor : IsFloor policy.links issued authorityId (some policy.trafficClasses) floor)
    (hF : decide rt floor evidence now siteId degraded = .ok onFloor)
    (hP : decide rt policy evidence now siteId' degraded' = .ok onPolicy) (i : Nat)
    (c : TrafficClass) (hc : (sortedClasses policy.trafficClasses)[i]? = some c) :
    ∃ floorEntry policyEntry, onFloor.classes[i]? = some floorEntry ∧
      onPolicy.classes[i]? = some policyEntry ∧ floorEntry.classId = c.id ∧
      policyEntry.classId = c.id ∧
      (floorEntry.permitted ⊆ policyEntry.permitted ↔
        ∀ l ∈ policy.links, FloorAdmits (evidence.asOf now) c l →
          ∃ l' ∈ policy.links, l'.id = l.id ∧ Untouched policy (evidence.asOf now) now c l') ∧
      ((policy.links.map (·.id)).Nodup → (floorEntry.permitted ⊆ policyEntry.permitted ↔
        ∀ l ∈ policy.links, FloorAdmits (evidence.asOf now) c l → ∀ rule ∈ policy.rules,
          rule.beyondFloor = true → rule.evaluate l c (evidence.asOf now) now = none)) := by
  have hmem : c ∈ policy.trafficClasses := mem_sortedClasses.mp (List.mem_of_getElem? hc)
  obtain ⟨floorEntry, policyEntry, hfloorEntry, hpolicyEntry, hwider⟩ :=
    floor_excludes_declared hfloor hF hP i c hc
  have hadmits (l : Link) : spares floor.rules (evidence.asOf now) now c l = true ↔
      FloorAdmits (evidence.asOf now) c l := by
    rw [hfloor.fields.2.2, floorClasses_of_mem hmem, ← admits_eq_spares]
    exact admits_floorRules hmem
  have hsubset := permitted_subset_iff hwider.floorEntry hwider.policyEntry
  simp only [hadmits, spares_iff_untouched] at hsubset
  refine ⟨floorEntry, policyEntry, hfloorEntry, hpolicyEntry, hwider.floorEntry.classId,
    hwider.policyEntry.classId, hsubset, fun hids => hsubset.trans ?_⟩
  refine forall₂_congr fun l hl => forall_congr' fun hadmitted => ?_
  constructor
  · rintro ⟨l', hl', hid, huntouched⟩
    obtain rfl := List.inj_on_of_nodup_map hids hl' hl hid
    exact huntouched.beyond
  · intro hbeyond
    exact ⟨l, hl, rfl, hbeyond, .inl hadmitted⟩

end

namespace Sample

/-- The sample bundle, with a link taken out by its authority for an hour. -/
def directed (linkId : String) : PolicyBundle :=
  { bundle 1 with rules := [.linkDown "R-DOWN", .directive "R-OUT" linkId "works" (clock 3600)] }

/-- The floor for its links and classes, and a decision under each. -/
theorem directed_decides (linkId : String) : ∃ floor onFloor onPolicy,
    floorBundle (directed linkId).links (some (clock 0)) "authority-1"
      (some (directed linkId).trafficClasses) = .ok floor ∧
    decide standIn floor ⟨[upAt "fiber0" 0]⟩ (clock 60) "site-1" true = .ok onFloor ∧
    decide standIn (directed linkId) ⟨[upAt "fiber0" 0]⟩ (clock 60) "site-1" = .ok onPolicy := by
  obtain ⟨floor, onFloor, hfloor, -, hF⟩ :=
    floor_decides (directed linkId).links (directed linkId).trafficClasses ⟨[upAt "fiber0" 0]⟩
  obtain ⟨onPolicy, hP⟩ : ∃ onPolicy,
      decide standIn (directed linkId) ⟨[upAt "fiber0" 0]⟩ (clock 60) "site-1" = .ok onPolicy :=
    decide_returns (validUntil_minute rfl)
  exact ⟨floor, onFloor, onPolicy, hfloor, hF, hP⟩

end Sample

/-- A link an authority has taken out is permitted under the floor. -/
theorem floor_permits_directed_out : ∃ floor onFloor onPolicy,
    let evidence : EvidenceSnapshot := ⟨[Sample.upAt "fiber0" 0]⟩
    let policy := Sample.directed "fiber0"
    floorBundle policy.links (some (Sample.clock 0)) "authority-1" (some policy.trafficClasses) =
      .ok floor ∧
    decide standIn floor evidence (Sample.clock 60) "site-1" true = .ok onFloor ∧
    decide standIn policy evidence (Sample.clock 60) "site-1" = .ok onPolicy ∧
    onFloor.classes.map (·.permitted) = [["fiber0"]] ∧
    onPolicy.classes.map (·.permitted) = [[]] := by
  obtain ⟨floor, onFloor, onPolicy, hfloor, hF, hP⟩ := Sample.directed_decides "fiber0"
  obtain ⟨-, -, hlinks, hclasses, hrules⟩ := floorBundle_ok hfloor
  have hnoon := Sample.asOf_noon [Sample.upAt "fiber0" 0] (by simp [Sample.upAt])
  refine ⟨floor, onFloor, onPolicy, hfloor, hF, hP, ?_, ?_⟩
  · rw [(decide_ok hF).2.2.2.2.2.2, hlinks, hclasses, hrules, hnoon]
    decide +kernel
  · rw [(decide_ok hP).2.2.2.2.2.2, hnoon]
    decide +kernel

/-- Where another link is taken out, the floor permits no more than the policy. -/
theorem floor_within_iff_sample : ∃ floor onFloor onPolicy floorEntry policyEntry,
    let evidence : EvidenceSnapshot := ⟨[Sample.upAt "fiber0" 0]⟩
    let policy := Sample.directed "lte0"
    decide standIn floor evidence (Sample.clock 60) "site-1" true = .ok onFloor ∧
    decide standIn policy evidence (Sample.clock 60) "site-1" = .ok onPolicy ∧
    onFloor.classes[0]? = some floorEntry ∧ onPolicy.classes[0]? = some policyEntry ∧
    floorEntry.permitted ⊆ policyEntry.permitted := by
  obtain ⟨floor, onFloor, onPolicy, hfloor, hF, hP⟩ := Sample.directed_decides "lte0"
  obtain ⟨floorEntry, policyEntry, hentry, hentry', -, -, -, hwithin⟩ :=
    floor_within_iff ⟨floor, hfloor, .inl rfl⟩ hF hP 0 (TrafficClass.ofId "bulk") rfl
  refine ⟨floor, onFloor, onPolicy, floorEntry, policyEntry, hF, hP, hentry, hentry', ?_⟩
  have hids : ((Sample.directed "lte0").links.map (·.id)).Nodup := by decide
  refine (hwithin hids).mpr fun l hl hadmitted rule hrule hkind => ?_
  rcases List.mem_pair.mp hl with rfl | rfl
  · rcases List.mem_pair.mp hrule with rfl | rfl
    · cases hkind
    · rfl
  · -- the link that is taken out was not observed
    obtain ⟨o, ho, -⟩ := hadmitted.up
    rw [Sample.asOf_noon [Sample.upAt "fiber0" 0] (by simp [Sample.upAt])] at ho
    cases ho

end Pilotfish
