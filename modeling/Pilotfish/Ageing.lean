import Pilotfish.FutureEvidence
import Pilotfish.Telemetry

/-!
# Evidence that ages

As time goes on the same measurements are older, and what was from the future is taken into
account. The horizon up to which it is, is a float sum: a measurement that lies just on the
allowance may be dropped at one clock and kept at the next.

Results:
1. `latest_earlier`: a measurement that is the latest later on and was kept earlier was the latest.
2. `evaluate_earlier`: where what comes in speaks no better, a rule spares no link that it did not.
3. `contracts_iff`: what is permitted contracts exactly in that case.
-/

namespace Pilotfish
open Python EvidenceSnapshot

/-! ## Ages and horizons -/

section Clocks
variable {earlier later : DateTime} {evidence : EvidenceSnapshot}

theorem Observation.ageS_mono (o : Observation) (h : earlier.us ≤ later.us) :
    o.ageS earlier ≤ o.ageS later := by
  refine max_le_max_left 0 (Binary64.round_mono ?_)
  have hus : ((earlier.us - o.atTime.us : Int) : ℚ) ≤ (later.us - o.atTime.us : Int) := by
    exact_mod_cast (by omega)
  linarith

theorem horizon_mono (h : earlier.us ≤ later.us) : horizon earlier ≤ horizon later := by
  refine Binary64.round_mono ?_
  have hstamp := DateTime.timestamp_mono h
  linarith

/-- What is kept at a clock is what is kept later, less what is then still ahead. -/
theorem asOf_earlier (evidence : EvidenceSnapshot) (h : earlier.us ≤ later.us) :
    evidence.asOf earlier = (evidence.asOf later).asOf earlier := by
  simp only [asOf, List.filter_filter, EvidenceSnapshot.mk.injEq]
  refine List.filter_congr ?_
  intro o _
  have hmono := horizon_mono h
  by_cases hkept : o.atTime.timestamp ≤ horizon earlier
  · simp [hkept, hkept.trans hmono]
  · simp [hkept]

theorem latest_earlier (h : earlier.us ≤ later.us) {linkId quantity : String} {o : Observation}
    (ho : (evidence.asOf later).latest linkId quantity = some o)
    (hkept : o.atTime.timestamp ≤ horizon earlier) :
    (evidence.asOf earlier).latest linkId quantity = some o := by
  have hcandidates : (evidence.asOf earlier).candidates linkId quantity =
      ((evidence.asOf later).candidates linkId quantity).filter fun o =>
        o.atTime.timestamp ≤ horizon earlier := by
    rw [asOf_earlier evidence h]
    exact List.filter_comm _ _ _
  rw [latest, hcandidates]
  exact Ties.argmax_filter ho (by simpa using hkept)

end Clocks

/-! ## What comes in -/

/-- What becomes the latest measurement because it is no longer ahead of the horizon speaks no
better of its link than the latest did before. -/
def ComesNoBetter (evidence : EvidenceSnapshot) (earlier later : DateTime) : Prop :=
  ∀ linkId quantity o, (evidence.asOf later).latest linkId quantity = some o →
    horizon earlier < o.atTime.timestamp →
    ∃ p, (evidence.asOf earlier).latest linkId quantity = some p ∧
      SpeaksNoBetter quantity o later p earlier

/-- Under every bundle without directives, what is permitted later was permitted earlier. -/
def Contracts (rt : Runtime) (evidence : EvidenceSnapshot) (earlier later : DateTime) : Prop :=
  ∀ (bundle : PolicyBundle) (siteId : String) (degraded : Bool)
    (decision decision' : EligibilityDecision),
    (∀ rule ∈ bundle.rules, rule.isDirective = false) →
    decide rt bundle evidence earlier siteId degraded = .ok decision →
    decide rt bundle evidence later siteId degraded = .ok decision' →
    NarrowerThan decision' decision

section
variable {rt : Runtime} {evidence : EvidenceSnapshot} {earlier later : DateTime}

/-- Whether or not it only came in, the latest measurement later speaks no better. -/
theorem latest_noBetter (h : earlier.us ≤ later.us) (hcomes : ComesNoBetter evidence earlier later)
    {linkId quantity : String} {o : Observation}
    (ho : (evidence.asOf later).latest linkId quantity = some o) :
    ∃ p, (evidence.asOf earlier).latest linkId quantity = some p ∧
      SpeaksNoBetter quantity o later p earlier := by
  rcases le_or_gt o.atTime.timestamp (horizon earlier) with hkept | hahead
  · exact ⟨o, latest_earlier h ho hkept, o.ageS_mono h, fun _ => id, fun _ => le_rfl, fun _ => le_rfl⟩
  · exact hcomes linkId quantity o ho hahead

theorem evaluate_earlier (h : earlier.us ≤ later.us) (hcomes : ComesNoBetter evidence earlier later)
    {rule : Rule} (hrule : rule.isDirective = false) {l : Link} {c : TrafficClass}
    (hspared : rule.evaluate l c (evidence.asOf later) later = none) :
    rule.evaluate l c (evidence.asOf earlier) earlier = none := by
  refine evaluate_of_noBetter ?_ ?_ hspared
  · intro hdirective
    cases hrule.symm.trans hdirective
  · intro quantity o ho
    exact latest_noBetter h hcomes ho

theorem contracts_of_comes (h : earlier.us ≤ later.us)
    (hcomes : ComesNoBetter evidence earlier later) : Contracts rt evidence earlier later := by
  intro bundle siteId degraded decision decision' hrules hdecide hdecide'
  obtain ⟨-, -, -, -, -, -, hclasses⟩ := decide_ok hdecide
  obtain ⟨-, -, -, -, -, -, hclasses'⟩ := decide_ok hdecide'
  refine narrowerThan_of_admits hclasses' hclasses ?_
  intro c l hadmits
  rw [admits_iff] at hadmits ⊢
  exact fun rule hrule => evaluate_earlier h hcomes (hrules rule hrule) (hadmits rule hrule)

/-- Where what is permitted contracts, a rule spares earlier what it spares later. -/
theorem evaluate_of_contracts (hcontracts : Contracts rt evidence earlier later) {rule : Rule}
    (hrule : rule.isDirective = false) {l : Link} {c : TrafficClass}
    (hspared : rule.evaluate l c (evidence.asOf later) later = none) :
    rule.evaluate l c (evidence.asOf earlier) earlier = none := by
  obtain ⟨decision, hdecide, -, hclasses⟩ := decide_single_at rt evidence earlier earlier l c rule
  obtain ⟨decision', hdecide', -, hclasses'⟩ := decide_single_at rt evidence earlier later l c rule
  have hnarrow := hcontracts _ _ _ _ _ (by simpa [single] using hrule) hdecide hdecide'
  rw [NarrowerThan, hclasses, hclasses'] at hnarrow
  have hsub := (List.forall₂_cons.mp hnarrow).1.2
  rw [(permitted_single rule _ later l c).mpr hspared] at hsub
  obtain ⟨l', hl', -, hadmits⟩ := mem_permitted.mp (hsub.subset (List.mem_singleton_self l.id))
  obtain rfl := List.mem_singleton.mp hl'
  exact admits_iff.mp hadmits rule (List.mem_singleton_self rule)

/-- The measurement that comes in serves as the bound that tells it from a worse one. -/
theorem comes_of_contracts (hcontracts : Contracts rt evidence earlier later) :
    ComesNoBetter evidence earlier later := by
  intro linkId quantity o ho _
  let l : Link := bareLink linkId
  have hage : (Rule.evidenceFreshness "" l.type quantity (.ofRat (o.ageS later))).evaluate l
      (bareClass none) (evidence.asOf later) later = none :=
    Rule.evaluate_evidenceFreshness.mpr ⟨o, ho, le_rfl⟩
  obtain ⟨p, hp, hle⟩ :=
    Rule.evaluate_evidenceFreshness.mp (evaluate_of_contracts hcontracts rfl hage)
  refine ⟨p, hp, hle, ?_, ?_, ?_⟩
  · rintro rfl hup
    have hspared : (Rule.linkDown "").evaluate l (bareClass none) (evidence.asOf later) later = none :=
      Rule.evaluate_linkDown.mpr ⟨o, ho, hup⟩
    obtain ⟨p', hp', hup'⟩ :=
      Rule.evaluate_linkDown.mp (evaluate_of_contracts hcontracts rfl hspared)
    rwa [Option.some.inj (hp.symm.trans hp')]
  · rintro rfl
    have hspared : (Rule.maxRtt "" (bareClass (some o.value.toRat)).id).evaluate l
        (bareClass (some o.value.toRat)) (evidence.asOf later) later = none := by
      refine Rule.evaluate_maxRtt.mpr ?_
      rintro bound ⟨⟩
      exact ⟨o, ho, le_rfl⟩
    obtain ⟨p', hp', hle'⟩ :=
      Rule.evaluate_maxRtt.mp (evaluate_of_contracts hcontracts rfl hspared) _ rfl
    rwa [Option.some.inj (hp.symm.trans hp')]
  · rintro rfl
    by_contra hworse
    have hspared : (Rule.quota "" l.type p.value).evaluate l (bareClass none) (evidence.asOf later)
        later = none := Rule.evaluate_quota.mpr ⟨o, ho, not_le.mp hworse⟩
    obtain ⟨p', hp', hlt⟩ :=
      Rule.evaluate_quota.mp (evaluate_of_contracts hcontracts rfl hspared)
    rw [← Option.some.inj (hp.symm.trans hp')] at hlt
    exact lt_irrefl _ hlt

/-- What is permitted contracts from a clock to a later one exactly when no measurement that the
horizon lets in between speaks better of its link than the latest before it. -/
theorem contracts_iff (h : earlier.us ≤ later.us) :
    Contracts rt evidence earlier later ↔ ComesNoBetter evidence earlier later :=
  ⟨comes_of_contracts, contracts_of_comes h⟩

end

namespace Sample

/-- A clock two minutes short of where the floats of instants get coarser, and a second later. -/
def coarse (seconds : UInt16) : DateTime :=
  ⟨2147483528000006 + seconds.toNat * 1000000, by unfold minSecond; omega, by
    have h : seconds.toNat < 2 ^ 16 := seconds.toNat_lt
    unfold maxSecond
    omega⟩

/-- The link was down at that clock, and is reported up from just where the allowance ends. -/
def comesUp : EvidenceSnapshot :=
  ⟨[{ downAt "fiber0" 0 with atTime := coarse 0 }, { upAt "fiber0" 0 with atTime := coarse 120 }]⟩

end Sample

/-- A report dated exactly as far ahead as is allowed is dropped, since the sum with the allowance
is rounded down, and permits the link a second later. -/
theorem rounding_widens : (Sample.coarse 0).us ≤ (Sample.coarse 1).us ∧
    (∀ o ∈ Sample.comesUp.observations, ¬((Sample.coarse 0).us + 120000000 < o.atTime.us ∧
      o.atTime.us ≤ (Sample.coarse 1).us + 120000000)) ∧
    (∀ rule ∈ (Sample.bundle 1).rules, rule.isDirective = false) ∧ ∃ decision decision',
      decide standIn (Sample.bundle 1) Sample.comesUp (Sample.coarse 0) "site-1" = .ok decision ∧
      decide standIn (Sample.bundle 1) Sample.comesUp (Sample.coarse 1) "site-1" = .ok decision' ∧
      decision.classes.map (·.permitted) = [[]] ∧
      decision'.classes.map (·.permitted) = [["fiber0"]] := by
  have huntil (seconds : UInt16) (h : seconds = 0 ∨ seconds = 1) :
      validUntil (Sample.bundle 1) (Sample.coarse seconds) = .ok (Sample.coarse (seconds + 60)) := by
    rcases h with rfl | rfl
    · exact bind_eq_ok_iff.mpr ⟨60000000, rfl, DateTime.ofUs_eq_ok.mpr rfl⟩
    · exact bind_eq_ok_iff.mpr ⟨60000000, rfl, DateTime.ofUs_eq_ok.mpr rfl⟩
  obtain ⟨decision, hdecide⟩ : ∃ decision, decide standIn (Sample.bundle 1) Sample.comesUp
      (Sample.coarse 0) "site-1" = .ok decision := decide_returns (huntil 0 (.inl rfl))
  obtain ⟨decision', hdecide'⟩ : ∃ decision, decide standIn (Sample.bundle 1) Sample.comesUp
      (Sample.coarse 1) "site-1" = .ok decision := decide_returns (huntil 1 (.inr rfl))
  obtain ⟨-, -, -, -, -, -, hclasses⟩ := decide_ok hdecide
  obtain ⟨-, -, -, -, -, -, hclasses'⟩ := decide_ok hdecide'
  refine ⟨by decide, by decide, by decide, decision, decision', hdecide, hdecide', ?_, ?_⟩
  · rw [hclasses]
    decide +kernel
  · rw [hclasses']
    decide +kernel

/-- What was measured at noon permits no more two minutes later than one minute later. -/
theorem contracts_iff_sample :
    Contracts standIn ⟨[Sample.upAt "fiber0" 0]⟩ (Sample.clock 60) (Sample.clock 120) := by
  refine (contracts_iff (by decide)).mpr ?_
  intro linkId quantity o ho hahead
  obtain ⟨hmem, -⟩ := mem_candidates.mp (latest_mem ho)
  obtain ⟨hmem, -⟩ := asOf_observations.mp hmem
  obtain rfl := List.mem_singleton.mp hmem
  have hkept : (Sample.clock 0).timestamp ≤ horizon (Sample.clock 60) :=
    timestamp_cut_le_horizon (by decide : (Sample.clock 0).us ≤ _) (Sample.cut_clock 0)
  exact absurd hahead (not_lt.mpr hkept)

end Pilotfish
