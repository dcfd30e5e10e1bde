import Pilotfish.EvidenceOrder
import Pilotfish.Narrowing

/-!
# Evidence from the future

Before a decision is taken, observations dated past the skew allowance are dropped. An older
observation of the same quantity is used in the place of one that was, and it may speak better
of the link.

Results:
1. `evaluate_of_noBetter`: a rule that spares a link by some evidence spares it by any that speaks
   no worse of it.
2. `evaluate_of_asOf`: where what is used instead speaks no better, every rule that spares a link
   would have spared it.
3. `discardNarrows_iff`: dropping never widens what is permitted exactly in that case.
-/

namespace Pilotfish
open Python EvidenceSnapshot

/-- Whatever is decided on, every link that is permitted would be with nothing dropped. -/
def DiscardNarrows (rt : Runtime) (evidence : EvidenceSnapshot) (now : DateTime) : Prop :=
  ∀ (bundle : PolicyBundle) (siteId : String) (degraded : Bool) (decision : EligibilityDecision),
    decide rt bundle evidence now siteId degraded = .ok decision →
    List.Forall₂ (fun entry c => entry.permitted.Sublist
      (eligibility bundle.rules evidence now bundle.links c).permitted)
      decision.classes (sortedClasses bundle.trafficClasses)

/-- The latest measurement of a link that is kept speaks no better of it than the latest of all:
not up where that is down, no shorter a latency and no smaller a part of the quota. -/
structure KeptNoBetter (evidence : EvidenceSnapshot) (now : DateTime) : Prop where
  up : ∀ linkId o p, (evidence.asOf now).latest linkId "up" = some o →
    evidence.latest linkId "up" = some p → 1 ≤ o.value.toRat → 1 ≤ p.value.toRat
  rtt : ∀ linkId o p, (evidence.asOf now).latest linkId "rtt_ms" = some o →
    evidence.latest linkId "rtt_ms" = some p → p.value.toRat ≤ o.value.toRat
  quota : ∀ linkId o p, (evidence.asOf now).latest linkId "quota_used_pct" = some o →
    evidence.latest linkId "quota_used_pct" = some p → p.value.toRat ≤ o.value.toRat

/-! ## Which measurements speak no better -/

/-- A measurement, read at the later clock, speaks no better of its link than another does at the
earlier one: it is no younger, not up where that is down, no shorter a latency and no smaller a part
of the quota. -/
structure SpeaksNoBetter (quantity : String) (o : Observation) (later : DateTime) (p : Observation)
    (earlier : DateTime) : Prop where
  age : p.ageS earlier ≤ o.ageS later
  up : quantity = "up" → 1 ≤ o.value.toRat → 1 ≤ p.value.toRat
  rtt : quantity = "rtt_ms" → p.value.toRat ≤ o.value.toRat
  quota : quantity = "quota_used_pct" → p.value.toRat ≤ o.value.toRat

def Rule.isDirective : Rule → Bool
  | .directive _ _ _ _ => true
  | _ => false

/-- A rule that spares a link by some evidence spares it by evidence that speaks no worse, measurement
by measurement; a directive looks at the clock only. -/
theorem evaluate_of_noBetter {evidence evidence' : EvidenceSnapshot} {later earlier : DateTime}
    {rule : Rule} {l : Link} {c : TrafficClass} (hclock : rule.isDirective = true → earlier = later)
    (hno : ∀ quantity o, evidence.latest l.id quantity = some o →
      ∃ p, evidence'.latest l.id quantity = some p ∧ SpeaksNoBetter quantity o later p earlier)
    (h : rule.evaluate l c evidence later = none) :
    rule.evaluate l c evidence' earlier = none := by
  cases rule with
  | linkDown ruleId =>
    obtain ⟨o, ho, hup⟩ := Rule.evaluate_linkDown.mp h
    obtain ⟨p, hp, hnone⟩ := hno _ o ho
    exact Rule.evaluate_linkDown.mpr ⟨p, hp, hnone.up rfl hup⟩
  | maxRtt ruleId classId =>
    by_cases hid : c.id = classId
    · subst hid
      refine Rule.evaluate_maxRtt.mpr ?_
      intro bound hbound
      obtain ⟨o, ho, hle⟩ := Rule.evaluate_maxRtt.mp h bound hbound
      obtain ⟨p, hp, hnone⟩ := hno _ o ho
      exact ⟨p, hp, (hnone.rtt rfl).trans hle⟩
    · exact (Rule.evaluate_other_class hid).1
  | quota ruleId type thresholdPct =>
    by_cases htype : l.type = type
    · subst htype
      obtain ⟨o, ho, hlt⟩ := Rule.evaluate_quota.mp h
      obtain ⟨p, hp, hnone⟩ := hno _ o ho
      exact Rule.evaluate_quota.mpr ⟨p, hp, (hnone.quota rfl).trans_lt hlt⟩
    · simp [Rule.evaluate, htype]
  | evidenceFreshness ruleId type quantity maxAgeS =>
    by_cases htype : l.type = type
    · subst htype
      obtain ⟨o, ho, hle⟩ := Rule.evaluate_evidenceFreshness.mp h
      obtain ⟨p, hp, hnone⟩ := hno _ o ho
      exact Rule.evaluate_evidenceFreshness.mpr ⟨p, hp, hnone.age.trans hle⟩
    · simp [Rule.evaluate, htype]
  | directive ruleId linkId reasonText notAfter =>
    obtain rfl : earlier = later := hclock rfl
    exact h
  | metered ruleId classId => exact h
  | jurisdiction ruleId classId => exact h
  | encryption ruleId classId => exact h
  | linkType ruleId type reasonText => exact h

/-! ## What dropping evidence does -/

section
variable {rt : Runtime} {evidence : EvidenceSnapshot} {now : DateTime}

/-- What is measured with some evidence dropped is measured at least as late without. -/
theorem latest_of_asOf {linkId quantity : String} {o : Observation}
    (h : (evidence.asOf now).latest linkId quantity = some o) :
    ∃ p, evidence.latest linkId quantity = some p ∧ o.atTime.us ≤ p.atTime.us := by
  obtain ⟨hmem, hcandidate⟩ := mem_candidates.mp (latest_mem h)
  exact latest_isSome (mem_candidates.mpr ⟨(asOf_observations.mp hmem).1, hcandidate⟩)

theorem evaluate_of_asOf (hkept : KeptNoBetter evidence now) {rule : Rule} {l : Link}
    {c : TrafficClass} (h : rule.evaluate l c (evidence.asOf now) now = none) :
    rule.evaluate l c evidence now = none := by
  refine evaluate_of_noBetter (fun _ => rfl) ?_ h
  intro quantity o ho
  obtain ⟨p, hp, hlate⟩ := latest_of_asOf ho
  refine ⟨p, hp, ?_, ?_, ?_, ?_⟩
  -- a later measurement is never older
  · exact Observation.ageS_antitone hlate
  · rintro rfl
    exact hkept.up _ _ _ ho hp
  · rintro rfl
    exact hkept.rtt _ _ _ ho hp
  · rintro rfl
    exact hkept.quota _ _ _ ho hp

theorem discardNarrows_of_kept (hkept : KeptNoBetter evidence now) :
    DiscardNarrows rt evidence now := by
  intro bundle siteId degraded decision h
  obtain ⟨-, -, -, -, -, -, hclasses⟩ := decide_ok h
  rw [hclasses, List.forall₂_map_left_iff, List.forall₂_same]
  refine fun c _ => permitted_sublist ?_
  intro l _ hadmits
  rw [admits_iff] at hadmits ⊢
  exact fun rule hrule => evaluate_of_asOf hkept (hadmits rule hrule)

/-- Where dropping narrows, a rule spares with everything what it spares with less. -/
theorem evaluate_of_discardNarrows (h : DiscardNarrows rt evidence now) {rule : Rule} {l : Link}
    {c : TrafficClass} (hspared : rule.evaluate l c (evidence.asOf now) now = none) :
    rule.evaluate l c evidence now = none := by
  obtain ⟨decision, hdecide, -, hclasses⟩ := decide_single rt evidence now l c rule
  have hnarrow := h _ _ _ _ hdecide
  rw [hclasses] at hnarrow
  have hsub := (List.forall₂_cons.mp hnarrow).1
  have hkept : l.id ∈ (eligibility [rule] (evidence.asOf now) now [l] c).permitted :=
    mem_permitted.mpr ⟨l, List.mem_singleton_self l, rfl, admits_iff.mpr (by simpa using hspared)⟩
  obtain ⟨l', hl', -, hadmits⟩ := mem_permitted.mp (hsub.subset hkept)
  obtain rfl := List.mem_singleton.mp hl'
  exact admits_iff.mp hadmits rule (List.mem_singleton_self rule)

/-- Each kept measurement serves as the bound that tells it from a worse one. -/
theorem kept_of_discardNarrows (h : DiscardNarrows rt evidence now) : KeptNoBetter evidence now where
  up := by
    intro linkId o p ho hp hup
    let l : Link := ⟨linkId, "", false, false, [], ""⟩
    let c := TrafficClass.ofId ""
    have hkept : (Rule.linkDown "").evaluate l c (evidence.asOf now) now = none :=
      Rule.evaluate_linkDown.mpr ⟨o, ho, hup⟩
    obtain ⟨p', hp', hup'⟩ := Rule.evaluate_linkDown.mp (evaluate_of_discardNarrows h hkept)
    rwa [Option.some.inj (hp.symm.trans hp')]
  rtt := by
    intro linkId o p ho hp
    let l : Link := ⟨linkId, "", false, false, [], ""⟩
    let c : TrafficClass := { TrafficClass.ofId "" with maxRttMs := some o.value }
    have hkept : (Rule.maxRtt "" c.id).evaluate l c (evidence.asOf now) now = none :=
      Rule.evaluate_maxRtt.mpr fun bound hbound => ⟨o, ho, by rw [Option.some.inj hbound]⟩
    obtain ⟨p', hp', hle⟩ :=
      Rule.evaluate_maxRtt.mp (evaluate_of_discardNarrows h hkept) o.value rfl
    rwa [Option.some.inj (hp.symm.trans hp')]
  quota := by
    intro linkId o p ho hp
    let l : Link := ⟨linkId, "", false, false, [], ""⟩
    let c := TrafficClass.ofId ""
    by_contra hworse
    have hkept : (Rule.quota "" l.type p.value).evaluate l c (evidence.asOf now) now = none :=
      Rule.evaluate_quota.mpr ⟨o, ho, not_le.mp hworse⟩
    obtain ⟨p', hp', hlt⟩ := Rule.evaluate_quota.mp (evaluate_of_discardNarrows h hkept)
    rw [← Option.some.inj (hp.symm.trans hp')] at hlt
    exact lt_irrefl _ hlt

/-- Dropping evidence from the future never widens what is permitted exactly when no measurement
that is kept speaks better of a link than the latest of all. -/
theorem discardNarrows_iff : DiscardNarrows rt evidence now ↔ KeptNoBetter evidence now :=
  ⟨kept_of_discardNarrows, discardNarrows_of_kept⟩

end

namespace Sample

/-- An observation made an hour ahead is not decided on. -/
theorem asOf_ahead (os : List Observation) (h : ∀ o ∈ os, o.atTime = clock 3600) :
    (EvidenceSnapshot.mk os).asOf (clock 60) = ⟨[]⟩ := by
  have hhorizon : horizon (clock 60) = ((1787918580 : Int) : ℚ) := by
    have hnow : (clock 60).timestamp = ((1787918460 : Int) : ℚ) := DateTime.timestamp_of_whole rfl
    have hsum : ((1787918460 : Int) : ℚ) + 120 = ((1787918580 : Int) : ℚ) := by norm_num
    rw [horizon, hnow, maxClockSkewS, hsum, Binary64.round_intCast (by norm_num)]
  have hahead : (clock 3600).timestamp = ((1787922000 : Int) : ℚ) := DateTime.timestamp_of_whole rfl
  rw [asOf, List.filter_eq_nil_iff.mpr fun o ho => ?_]
  rw [h o ho, hhorizon, hahead]
  norm_num

end Sample

/-- An outage reported by a clock an hour ahead is dropped, and the link is permitted on what was
measured before it. -/
theorem dropped_outage_permits : ∃ decision,
    let evidence : EvidenceSnapshot := ⟨[Sample.upAt "fiber0" 0, Sample.downAt "fiber0" 3600]⟩
    decide standIn (Sample.bundle 1) evidence (Sample.clock 60) "site-1" = .ok decision ∧
    decision.classes.map (·.permitted) = [["fiber0"]] ∧
    (sortedClasses (Sample.bundle 1).trafficClasses).map (fun c =>
      (eligibility (Sample.bundle 1).rules evidence (Sample.clock 60) (Sample.bundle 1).links
        c).permitted) = [[]] ∧
    ¬DiscardNarrows standIn evidence (Sample.clock 60) := by
  have hkept : (EvidenceSnapshot.mk [Sample.upAt "fiber0" 0, Sample.downAt "fiber0" 3600]).asOf
      (Sample.clock 60) = ⟨[Sample.upAt "fiber0" 0]⟩ := by
    rw [asOf_cons (timestamp_cut_le_horizon (by decide : (Sample.clock 0).us ≤ _)
      (Sample.cut_clock 0)), Sample.asOf_ahead _ (by simp [Sample.downAt, Sample.upAt])]
  obtain ⟨decision, hdecide⟩ : ∃ decision, decide standIn (Sample.bundle 1)
      ⟨[Sample.upAt "fiber0" 0, Sample.downAt "fiber0" 3600]⟩ (Sample.clock 60) "site-1" =
        .ok decision := decide_returns (Sample.validUntil_minute rfl)
  obtain ⟨-, -, -, -, -, -, hclasses⟩ := decide_ok hdecide
  rw [hkept] at hclasses
  refine ⟨decision, hdecide, ?_, by decide +kernel, fun h => ?_⟩
  · rw [hclasses]
    decide +kernel
  · have hup := (kept_of_discardNarrows h).up "fiber0" (Sample.upAt "fiber0" 0)
      (Sample.downAt "fiber0" 3600) (by rw [hkept]; rfl) (by rfl) (le_refl _)
    exact absurd hup (by decide +kernel)

end Pilotfish
