import Pilotfish.FloorPolicy

/-!
# More rules, less evidence

A decision under more rules, or on evidence in which some measurements are missing, permits no
more: rules only take links out, and what is not measured counts against a link.

Results:
1. `rules_only_exclude`: under two rule lists together a link stays exactly when it stays under
   each of them, and each reason against a link is an exclusion.
2. `silence_narrows`: removing measurements takes links out and puts none in.
-/

namespace Pilotfish
open Python

/-! ## Decisions that permit less -/

/-- Class by class, no link that the other decision does not permit. -/
def NarrowerThan (decision wider : EligibilityDecision) : Prop :=
  List.Forall₂ (fun entry entry' => entry.classId = entry'.classId ∧
    entry.permitted.Sublist entry'.permitted) decision.classes wider.classes

section Narrower
variable {rules rules' : List Rule} {evidence evidence' : EvidenceSnapshot} {now now' : DateTime}
  {links : List Link}

theorem permitted_sublist {c : TrafficClass}
    (h : ∀ l ∈ links, admits rules evidence now c l = true →
      admits rules' evidence' now' c l = true) :
    (eligibility rules evidence now links c).permitted.Sublist
      (eligibility rules' evidence' now' links c).permitted := by
  -- what is admitted here is filtered out of what is admitted there
  have hfilter : (sortedLinks links).filter (admits rules evidence now c) =
      ((sortedLinks links).filter (admits rules' evidence' now' c)).filter
        (admits rules evidence now c) := by
    rw [List.filter_filter]
    refine List.filter_congr ?_
    intro l hl
    cases hadmits : admits rules evidence now c l with
    | false => rfl
    | true => rw [h l (mem_sortedLinks.mp hl) hadmits, Bool.and_self]
  simp only [eligibility]
  rw [hfilter]
  exact List.filter_sublist.map _

/-- A decision where fewer links are admitted is narrower. -/
theorem narrowerThan_of_admits {classes : List TrafficClass} {decision wider : EligibilityDecision}
    (hclasses : decision.classes = classes.map (eligibility rules evidence now links))
    (hclasses' : wider.classes = classes.map (eligibility rules' evidence' now' links))
    (h : ∀ c l, admits rules evidence now c l = true → admits rules' evidence' now' c l = true) :
    NarrowerThan decision wider := by
  rw [NarrowerThan, hclasses, hclasses', List.forall₂_map_left_iff, List.forall₂_map_right_iff,
    List.forall₂_same]
  exact fun c _ => ⟨rfl, permitted_sublist fun l _ => h c l⟩

end Narrower

/-! ## Rules -/

/-- No rule of a list says anything against a link. -/
def spares (rules : List Rule) (evidence : EvidenceSnapshot) (now : DateTime) (c : TrafficClass)
    (l : Link) : Bool := rules.all fun rule => (rule.evaluate l c evidence now).isNone

/-- An entry of a decision: the links of the sorted inventory that are spared are permitted, and
each reason of a rule against a link is one exclusion. -/
structure Explains (rules : List Rule) (evidence : EvidenceSnapshot) (now : DateTime)
    (links : List Link) (c : TrafficClass) (entry : ClassEligibility) : Prop where
  classId : entry.classId = c.id
  permitted : entry.permitted =
    ((sortedLinks links).filter (spares rules evidence now c)).map (·.id)
  exclusions : entry.exclusions.Perm (links.flatMap fun l => rules.filterMap fun rule =>
    (rule.evaluate l c evidence now).map fun reason => ⟨l.id, rule.ruleId, reason⟩)
  sorted : entry.exclusions.Pairwise fun e f =>
    e.linkId < f.linkId ∨ (e.linkId = f.linkId ∧ e.ruleId ≤ f.ruleId)
  explained : ∀ l ∈ links, (spares rules evidence now c l = true ∧ l.id ∈ entry.permitted) ∨
    ∃ rule ∈ rules, ∃ reason, rule.evaluate l c evidence now = some reason ∧
      ⟨l.id, rule.ruleId, reason⟩ ∈ entry.exclusions

section Rules
variable {rules rules' : List Rule} {evidence : EvidenceSnapshot} {now : DateTime}
  {links : List Link} {c : TrafficClass} {l : Link}

theorem spares_iff : spares rules evidence now c l = true ↔
    ∀ rule ∈ rules, rule.evaluate l c evidence now = none := by
  simp [spares]

theorem admits_eq_spares : admits rules evidence now c = spares rules evidence now c := by
  funext l
  rw [Bool.eq_iff_iff, admits_iff, spares_iff]

theorem spares_append : spares (rules ++ rules') evidence now c l =
    (spares rules evidence now c l && spares rules' evidence now c l) := List.all_append

theorem admits_append : admits (rules ++ rules') evidence now c l = true ↔
    admits rules evidence now c l = true ∧ admits rules' evidence now c l = true := by
  rw [admits_eq_spares, admits_eq_spares, admits_eq_spares, spares_append, Bool.and_eq_true]

/-- What is spared depends on which rules there are, not on their order or number. -/
theorem spares_congr (h : ∀ rule, rule ∈ rules ↔ rule ∈ rules') :
    spares rules evidence now c = spares rules' evidence now c := by
  funext l
  rw [Bool.eq_iff_iff, spares_iff, spares_iff]
  simp only [h]

theorem explains_eligibility :
    Explains rules evidence now links c (eligibility rules evidence now links c) := by
  have hperm : (eligibility rules evidence now links c).exclusions.Perm
      (links.flatMap (reasons rules evidence now c)) :=
    (List.perm_insertionSort _ _).trans
      ((List.perm_insertionSort _ links).flatMap_right _)
  refine ⟨rfl, by rw [← admits_eq_spares]; rfl, hperm, ?_, fun l hl => ?_⟩
  · have hsorted := List.pairwise_insertionSort (fun e f => exclusionKey e ≤ exclusionKey f)
      ((sortedLinks links).flatMap (reasons rules evidence now c))
    exact hsorted.imp fun h => Prod.Lex.le_iff.mp h
  · by_cases hspares : spares rules evidence now c l = true
    · exact .inl ⟨hspares, mem_permitted.mpr ⟨l, hl, rfl, by rwa [admits_eq_spares]⟩⟩
    · rw [spares_iff] at hspares
      push Not at hspares
      obtain ⟨rule, hrule, hne⟩ := hspares
      obtain ⟨reason, hreason⟩ := Option.ne_none_iff_exists'.mp hne
      refine .inr ⟨rule, hrule, reason, hreason, hperm.mem_iff.mpr ?_⟩
      exact List.mem_flatMap.mpr ⟨l, hl, List.mem_filterMap.mpr ⟨rule, hrule, by simp [hreason]⟩⟩

end Rules

/-- What two lists of rules make of a decision together, against what each of them makes of it:
a link stays where it stays under both, whatever the order and the number of the rules. -/
structure Conjoins (rt : Runtime) (bundle : PolicyBundle) (evidence : EvidenceSnapshot)
    (now : DateTime) (rules₁ rules₂ : List Rule) (decision first second : EligibilityDecision) :
    Prop where
  entries : ∀ (i : Nat) entry, decision.classes[i]? = some entry → ∃ c entry₁ entry₂,
    (sortedClasses bundle.trafficClasses)[i]? = some c ∧
    first.classes[i]? = some entry₁ ∧ second.classes[i]? = some entry₂ ∧
    Explains (rules₁ ++ rules₂) (evidence.asOf now) now bundle.links c entry ∧
    Explains rules₁ (evidence.asOf now) now bundle.links c entry₁ ∧
    Explains rules₂ (evidence.asOf now) now bundle.links c entry₂ ∧
    entry.permitted = ((sortedLinks bundle.links).filter fun l =>
      spares rules₁ (evidence.asOf now) now c l && spares rules₂ (evidence.asOf now) now c l).map
        (·.id)
  order : ∀ rules siteId degraded other, (∀ rule, rule ∈ rules ↔ rule ∈ rules₁ ++ rules₂) →
    decide rt { bundle with rules := rules } evidence now siteId degraded = .ok other →
    other.classes.map (·.permitted) = decision.classes.map (·.permitted)
  narrower : NarrowerThan decision first ∧ NarrowerThan decision second

section Decisions
variable {rt : Runtime} {bundle : PolicyBundle} {evidence : EvidenceSnapshot} {now : DateTime}
  {siteId : String} {degraded : Bool} {decision : EligibilityDecision}

/-- Bundles that are alike up to their rules are decided alike up to their classes. -/
theorem decide_of_rules {rules : List Rule}
    (h : decide rt { bundle with rules := rules } evidence now siteId degraded = .ok decision)
    (rules' : List Rule) : ∃ decision',
      decide rt { bundle with rules := rules' } evidence now siteId degraded = .ok decision' := by
  obtain ⟨-, -, huntil, -⟩ := decide_ok h
  have huntil' : validUntil { bundle with rules := rules' } now = .ok decision.validUntil := huntil
  exact decide_returns huntil'

/-- Every rule only excludes: two lists of rules admit what each of them admits, and each reason
they give is an exclusion. -/
theorem rules_only_exclude {rules₁ rules₂ : List Rule}
    (h : decide rt { bundle with rules := rules₁ ++ rules₂ } evidence now siteId degraded =
      .ok decision) : ∃ first second,
    decide rt { bundle with rules := rules₁ } evidence now siteId degraded = .ok first ∧
    decide rt { bundle with rules := rules₂ } evidence now siteId degraded = .ok second ∧
    Conjoins rt bundle evidence now rules₁ rules₂ decision first second := by
  obtain ⟨first, hfirst⟩ := decide_of_rules h rules₁
  obtain ⟨second, hsecond⟩ := decide_of_rules h rules₂
  obtain ⟨-, -, -, -, -, -, hclasses⟩ := decide_ok h
  obtain ⟨-, -, -, -, -, -, hclasses₁⟩ := decide_ok hfirst
  obtain ⟨-, -, -, -, -, -, hclasses₂⟩ := decide_ok hsecond
  refine ⟨first, second, hfirst, hsecond, ?_, ?_, ?_, ?_⟩
  · intro i entry hentry
    rw [hclasses, List.getElem?_map, Option.map_eq_some_iff] at hentry
    obtain ⟨c, hc, rfl⟩ := hentry
    refine ⟨c, _, _, hc, ?_, ?_, explains_eligibility, explains_eligibility, explains_eligibility,
      ?_⟩
    · rw [hclasses₁, List.getElem?_map]
      exact congrArg _ hc
    · rw [hclasses₂, List.getElem?_map]
      exact congrArg _ hc
    · simp only [← spares_append]
      exact explains_eligibility.permitted
  · intro rules siteId' degraded' other hsame hother
    obtain ⟨-, -, -, -, -, -, hclasses'⟩ := decide_ok hother
    rw [hclasses, hclasses', List.map_map, List.map_map]
    refine List.map_congr_left ?_
    intro c _
    show List.map _ (List.filter (admits _ _ _ c) _) = List.map _ (List.filter (admits _ _ _ c) _)
    rw [admits_eq_spares, admits_eq_spares, spares_congr hsame]
  · refine narrowerThan_of_admits hclasses hclasses₁ ?_
    exact fun c l hadmits => (admits_append.mp hadmits).1
  · refine narrowerThan_of_admits hclasses hclasses₂ ?_
    exact fun c l hadmits => (admits_append.mp hadmits).2

end Decisions

/-- Liveness and a class that permits no metered path, decided on with one link up. -/
theorem rules_only_exclude_sample : ∃ decision,
    let down := [Rule.linkDown "R-DOWN"]
    let unmetered := [Rule.metered "R-METER" "bulk"]
    let evidence : EvidenceSnapshot := ⟨[Sample.upAt "fiber0" 0]⟩
    decide standIn { Sample.bundle 1 with rules := down ++ unmetered } evidence (Sample.clock 60)
      "site-1" = .ok decision ∧
    ∃ first second,
      decide standIn { Sample.bundle 1 with rules := down } evidence (Sample.clock 60) "site-1" =
        .ok first ∧
      decide standIn { Sample.bundle 1 with rules := unmetered } evidence (Sample.clock 60)
        "site-1" = .ok second ∧
      Conjoins standIn (Sample.bundle 1) evidence (Sample.clock 60) down unmetered decision first
        second := by
  obtain ⟨decision, hdecide⟩ : ∃ decision, decide standIn { Sample.bundle 1 with
      rules := [Rule.linkDown "R-DOWN"] ++ [Rule.metered "R-METER" "bulk"] }
      ⟨[Sample.upAt "fiber0" 0]⟩ (Sample.clock 60) "site-1" = .ok decision :=
    decide_returns (Sample.validUntil_minute rfl)
  exact ⟨decision, hdecide, rules_only_exclude hdecide⟩

/-! ## Silence -/

namespace EvidenceSnapshot
variable {evidence : EvidenceSnapshot} {silenced : String → String → Bool} {now : DateTime}
  {linkId quantity : String}

/-- The evidence without any observation of the silenced pairs of a link and a quantity. -/
def silence (evidence : EvidenceSnapshot) (silenced : String → String → Bool) :
    EvidenceSnapshot :=
  ⟨evidence.observations.filter fun o => !silenced o.linkId o.quantity⟩

theorem asOf_silence : (evidence.silence silenced).asOf now = (evidence.asOf now).silence silenced := by
  simp only [asOf, silence, List.filter_filter]
  refine congrArg EvidenceSnapshot.mk (List.filter_congr fun o _ => Bool.and_comm _ _)

theorem latest_silence_of_silenced (h : silenced linkId quantity = true) :
    (evidence.silence silenced).latest linkId quantity = none := by
  rw [latest_eq_none, List.eq_nil_iff_forall_not_mem]
  intro o ho
  obtain ⟨hmem, rfl, rfl⟩ := mem_candidates.mp ho
  simp [silence, h] at hmem

theorem latest_silence_of_heard (h : silenced linkId quantity = false) :
    (evidence.silence silenced).latest linkId quantity = evidence.latest linkId quantity := by
  have hsame : (evidence.silence silenced).candidates linkId quantity =
      evidence.candidates linkId quantity := by
    simp only [candidates, silence, List.filter_filter]
    refine List.filter_congr ?_
    intro o _
    by_cases ho : o.linkId = linkId ∧ o.quantity = quantity
    · simp [ho, h]
    · simp [ho]
  rw [latest, hsame, latest]

end EvidenceSnapshot

section Silence
variable {rules : List Rule} {evidence : EvidenceSnapshot} {now : DateTime}

/-- What is admitted without some measurements is admitted with them: a rule that reads one of
them would exclude the link. -/
theorem admits_of_admits_silence {silenced : String → String → Bool} {c : TrafficClass} {l : Link}
    (h : admits rules (evidence.silence silenced) now c l = true) :
    admits rules evidence now c l = true := by
  rw [admits_iff] at h ⊢
  intro rule hrule
  have hspared := h rule hrule
  rw [← hspared]
  refine Rule.evaluate_congr ?_
  intro quantity hreads
  cases hsilenced : silenced l.id quantity with
  | false => exact (EvidenceSnapshot.latest_silence_of_heard hsilenced).symm
  | true =>
    have habsent : (evidence.silence silenced).latest l.id quantity = none :=
      EvidenceSnapshot.latest_silence_of_silenced hsilenced
    obtain ⟨reason, hreason⟩ := Rule.evaluate_absent hreads habsent
    rw [hreason] at hspared
    cases hspared

/-- Silence never widens: without all observations of some pairs of a link and a quantity, no link
is permitted that was not permitted with them; and a rule excludes where there is no measurement
of what it reads. -/
theorem silence_narrows {rt : Runtime} {bundle : PolicyBundle} {siteId : String} {degraded : Bool}
    {decision : EligibilityDecision} (silenced : String → String → Bool)
    (h : decide rt bundle evidence now siteId degraded = .ok decision) :
    (∃ decision', decide rt bundle (evidence.silence silenced) now siteId degraded =
      .ok decision' ∧ NarrowerThan decision' decision) ∧
    ∀ rule ∈ bundle.rules, ∀ l ∈ bundle.links, ∀ c ∈ bundle.trafficClasses, ∀ quantity,
      rule.reads l c = some quantity →
      (∀ o ∈ (evidence.asOf now).observations, o.linkId = l.id → o.quantity ≠ quantity) →
      (∃ reason, rule.evaluate l c (evidence.asOf now) now = some reason) ∧
      spares bundle.rules (evidence.asOf now) now c l = false := by
  obtain ⟨-, -, huntil, -, -, -, hclasses⟩ := decide_ok h
  constructor
  · obtain ⟨decision', h'⟩ := decide_returns huntil
    obtain ⟨-, -, -, -, -, -, hclasses'⟩ := decide_ok h'
    rw [EvidenceSnapshot.asOf_silence] at hclasses'
    exact ⟨decision', h', narrowerThan_of_admits hclasses' hclasses
      fun _ _ hadmits => admits_of_admits_silence hadmits⟩
  · intro rule hrule l _ c _ quantity hreads habsent
    have hlatest : (evidence.asOf now).latest l.id quantity = none := by
      rw [EvidenceSnapshot.latest_eq_none, List.eq_nil_iff_forall_not_mem]
      intro o ho
      obtain ⟨hmem, hid, hquantity⟩ := EvidenceSnapshot.mem_candidates.mp ho
      exact habsent o hmem hid hquantity
    obtain ⟨reason, hreason⟩ := Rule.evaluate_absent hreads hlatest
    refine ⟨⟨reason, hreason⟩, ?_⟩
    rw [Bool.eq_false_iff, Ne, spares_iff]
    intro hspared
    rw [hspared rule hrule] at hreason
    cases hreason

end Silence

/-- With the one probe silenced, a decision under the sample bundle. -/
theorem silence_narrows_sample : ∃ decision,
    let evidence : EvidenceSnapshot := ⟨[Sample.upAt "fiber0" 0]⟩
    decide standIn (Sample.bundle 1) evidence (Sample.clock 60) "site-1" = .ok decision ∧
    ∃ decision', decide standIn (Sample.bundle 1) (evidence.silence fun _ _ => true)
      (Sample.clock 60) "site-1" = .ok decision' ∧ NarrowerThan decision' decision := by
  obtain ⟨decision, hdecide⟩ : ∃ decision, decide standIn (Sample.bundle 1)
      ⟨[Sample.upAt "fiber0" 0]⟩ (Sample.clock 60) "site-1" = .ok decision :=
    decide_returns (Sample.validUntil_minute rfl)
  exact ⟨decision, hdecide, (silence_narrows _ hdecide).1⟩

end Pilotfish
