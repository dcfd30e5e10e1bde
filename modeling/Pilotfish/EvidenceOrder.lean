import Pilotfish.FloorPolicy
import Pilotfish.Ties

/-!
# The order of the evidence

A snapshot is a tuple of observations that is meant as a set. Of several latest measurements of
one quantity the first is used, and of several rows that compare equal the first is hashed
first; which that is depends on the order.

Results:
1. `evaluate_perm`, `rows_perm`: where what is tied reads alike, no rule and no hash tells two
   orders apart.
2. `evaluate_of_orderBlind`: where no decision tells them apart, no rule does.
3. `orderBlind_iff`: decisions do not depend on the order of the evidence exactly when its tied
   measurements agree on all that rules and rows read.
-/

namespace Pilotfish
open Python

namespace EvidenceSnapshot

/-- One of the latest measurements of a quantity of a link. -/
def IsLatest (evidence : EvidenceSnapshot) (linkId quantity : String) (o : Observation) : Prop :=
  o ∈ evidence.candidates linkId quantity ∧
    ∀ p ∈ evidence.candidates linkId quantity, p.atTime.us ≤ o.atTime.us

/-- Latest measurements of a link agree on being up, and are the same number in the same
spelling where a rule compares and reports it, a latency only above some bound; rows that compare
equal are equal. -/
structure Unambiguous (evidence : EvidenceSnapshot) : Prop where
  up : ∀ linkId o p, evidence.IsLatest linkId "up" o → evidence.IsLatest linkId "up" p →
    (o.value.toRat < 1 ↔ p.value.toRat < 1)
  rtt : ∀ linkId o p, evidence.IsLatest linkId "rtt_ms" o → evidence.IsLatest linkId "rtt_ms" p →
    o.value.toRat = p.value.toRat ∧
    ∀ bound : Num, bound.toRat < o.value.toRat → o.value.text = p.value.text
  quota : ∀ linkId o p, evidence.IsLatest linkId "quota_used_pct" o →
    evidence.IsLatest linkId "quota_used_pct" p →
    o.value.toRat = p.value.toRat ∧ o.value.text = p.value.text
  rows : ∀ o ∈ evidence.observations, ∀ p ∈ evidence.observations, rowKey o = rowKey p → row o = row p

end EvidenceSnapshot

open EvidenceSnapshot

/-- Every decision taken at a clock is the same, whatever the order of the evidence. -/
def OrderBlind (rt : Runtime) (evidence : EvidenceSnapshot) (now : DateTime) : Prop :=
  ∀ (bundle : PolicyBundle) (siteId : String) (degraded : Bool) (evidence' : EvidenceSnapshot),
    evidence'.observations.Perm evidence.observations →
    decide rt bundle evidence' now siteId degraded = decide rt bundle evidence now siteId degraded

/-- The encoding and its digest keep different orders of this evidence apart. -/
def OrdersApart (rt : Runtime) (evidence : EvidenceSnapshot) : Prop :=
  ∀ e₁ e₂ : EvidenceSnapshot, e₁.observations.Perm evidence.observations →
    e₂.observations.Perm evidence.observations → e₁.hash rt = e₂.hash rt → e₁.rows = e₂.rows

/-! ## Tied measurements that read alike -/

section Alike
variable {evidence evidence' : EvidenceSnapshot} {now : DateTime}
  (h : evidence'.observations.Perm evidence.observations)
include h

theorem asOf_perm : (evidence'.asOf now).observations.Perm (evidence.asOf now).observations :=
  h.filter _

theorem candidates_perm (linkId quantity : String) :
    (evidence'.candidates linkId quantity).Perm (evidence.candidates linkId quantity) := h.filter _

/-- The latest measurements of two orders are both among the latest of the one. -/
theorem latest_perm (linkId quantity : String) :
    (evidence'.latest linkId quantity = none ∧ evidence.latest linkId quantity = none) ∨
    ∃ o' o, evidence'.latest linkId quantity = some o' ∧ evidence.latest linkId quantity = some o ∧
      evidence.IsLatest linkId quantity o' ∧ evidence.IsLatest linkId quantity o := by
  have hperm := candidates_perm h linkId quantity
  cases h' : evidence'.latest linkId quantity with
  | none =>
    rw [latest_eq_none] at h'
    rw [h', List.nil_perm] at hperm
    exact .inl ⟨rfl, latest_eq_none.mpr hperm⟩
  | some o' =>
    cases ho : evidence.latest linkId quantity with
    | none =>
      rw [latest_eq_none.mp ho, List.perm_nil] at hperm
      rw [latest_eq_none.mpr hperm] at h'
      cases h'
    | some o =>
      exact .inr ⟨o', o, rfl, rfl,
        ⟨hperm.mem_iff.mp (latest_mem h'), fun p hp => le_latest h' (hperm.mem_iff.mpr hp)⟩,
        latest_mem ho, fun p hp => le_latest ho hp⟩

theorem evaluate_perm (hclear : evidence.Unambiguous) (rule : Rule) (l : Link) (c : TrafficClass) :
    rule.evaluate l c evidence' now = rule.evaluate l c evidence now := by
  cases rule with
  | linkDown ruleId =>
    simp only [Rule.evaluate]
    rcases latest_perm h l.id "up" with ⟨h', ho⟩ | ⟨o', o, h', ho, hl', hl⟩
    · rw [h', ho]
    · rw [h', ho]
      simp only [hclear.up l.id o' o hl' hl]
  | maxRtt ruleId classId =>
    simp only [Rule.evaluate]
    rcases latest_perm h l.id "rtt_ms" with ⟨h', ho⟩ | ⟨o', o, h', ho, hl', hl⟩
    · rw [h', ho]
    · obtain ⟨hrat, htext⟩ := hclear.rtt l.id o' o hl' hl
      rw [h', ho]
      cases hbound : c.maxRttMs with
      | none => rfl
      | some bound =>
        -- the text of a measurement is only reported where the bound is exceeded
        by_cases hexceeds : bound.toRat < o'.value.toRat
        · simp only [htext bound hexceeds, hrat]
        · simp only [if_neg hexceeds, if_neg (hrat ▸ hexceeds)]
  | quota ruleId type thresholdPct =>
    simp only [Rule.evaluate]
    rcases latest_perm h l.id "quota_used_pct" with ⟨h', ho⟩ | ⟨o', o, h', ho, hl', hl⟩
    · rw [h', ho]
    · obtain ⟨hrat, htext⟩ := hclear.quota l.id o' o hl' hl
      rw [h', ho]
      simp only [hrat, htext]
  | evidenceFreshness ruleId type quantity maxAgeS =>
    -- tied measurements are of one age
    have hage : evidence'.ageS l.id quantity now = evidence.ageS l.id quantity now := by
      rcases latest_perm h l.id quantity with ⟨h', ho⟩ | ⟨o', o, h', ho, hl', hl⟩
      · rw [ageS, ageS, h', ho]
      · have htime : o'.atTime = o.atTime :=
          DateTime.ext (le_antisymm (hl.2 o' hl'.1) (hl'.2 o hl.1))
        rw [ageS, ageS, h', ho, Option.map_some, Option.map_some, Observation.ageS,
          Observation.ageS, htime]
    simp only [Rule.evaluate, hage]
  | _ => rfl

theorem rows_perm (hrows : ∀ o ∈ evidence.observations, ∀ p ∈ evidence.observations,
    rowKey o = rowKey p → row o = row p) : evidence'.rows = evidence.rows :=
  (Ties.map_insertionSort_perm rowKey row h.symm hrows).symm

end Alike

theorem orderBlind_of_unambiguous {rt : Runtime} {evidence : EvidenceSnapshot} {now : DateTime}
    (hclear : (evidence.asOf now).Unambiguous) : OrderBlind rt evidence now := by
  intro bundle siteId degraded evidence' h
  have hrows : (evidence'.asOf now).rows = (evidence.asOf now).rows :=
    rows_perm (asOf_perm h) hclear.rows
  have hreasons (c : TrafficClass) : reasons bundle.rules (evidence'.asOf now) now c =
      reasons bundle.rules (evidence.asOf now) now c := by
    funext l
    simp only [reasons, evaluate_perm (asOf_perm h) hclear]
  have hclasses (c : TrafficClass) :
      eligibility bundle.rules (evidence'.asOf now) now bundle.links c =
        eligibility bundle.rules (evidence.asOf now) now bundle.links c := by
    have hadmits : admits bundle.rules (evidence'.asOf now) now c =
        admits bundle.rules (evidence.asOf now) now c := by
      funext l
      rw [admits, admits, hreasons]
    rw [eligibility, eligibility, hreasons, hadmits]
  rw [decide_eq, decide_eq]
  simp only [EvidenceSnapshot.hash, hrows, funext hclasses]

/-! ## Measurements that come first -/

theorem latest_cons {o : Observation} {os : List Observation} {linkId quantity : String}
    (hlink : o.linkId = linkId) (hquantity : o.quantity = quantity)
    (hmax : ∀ p ∈ (EvidenceSnapshot.mk os).candidates linkId quantity, p.atTime.us ≤ o.atTime.us) :
    (EvidenceSnapshot.mk (o :: os)).latest linkId quantity = some o := by
  classical
  rw [latest, candidates, List.filter_cons_of_pos (by simp [hlink, hquantity])]
  exact Ties.argmax_cons_of_le hmax

theorem asOf_cons {o : Observation} {os : List Observation} {now : DateTime}
    (h : o.atTime.timestamp ≤ horizon now) : (EvidenceSnapshot.mk (o :: os)).asOf now =
      ⟨o :: ((EvidenceSnapshot.mk os).asOf now).observations⟩ := by
  rw [asOf, List.filter_cons_of_pos (by simpa using h)]
  rfl

/-- Each of the latest measurements is the one that is used, in some order. -/
theorem EvidenceSnapshot.IsLatest.exists_first {evidence : EvidenceSnapshot} {now : DateTime}
    {linkId quantity : String} {o : Observation}
    (h : (evidence.asOf now).IsLatest linkId quantity o) :
    ∃ e : EvidenceSnapshot, e.observations.Perm evidence.observations ∧
      (e.asOf now).latest linkId quantity = some o := by
  classical
  obtain ⟨hmem, hlink, hquantity⟩ := mem_candidates.mp h.1
  obtain ⟨hin, hhorizon⟩ := asOf_observations.mp hmem
  have hperm := (List.perm_cons_erase hin).symm
  refine ⟨⟨o :: evidence.observations.erase o⟩, hperm, ?_⟩
  rw [asOf_cons hhorizon]
  refine latest_cons hlink hquantity fun p hp => h.2 p ?_
  obtain ⟨hp, hcandidate⟩ := mem_candidates.mp hp
  obtain ⟨hp, hclock⟩ := asOf_observations.mp hp
  exact mem_candidates.mpr ⟨asOf_observations.mpr ⟨List.mem_of_mem_erase hp, hclock⟩, hcandidate⟩

/-! ## What decisions that do not tell orders apart say -/

/-- A bundle of one link, one class and one rule, valid for the instant. -/
def single (now : DateTime) (l : Link) (c : TrafficClass) (rule : Rule) : PolicyBundle where
  bundleId := ""
  authorityId := ""
  sequence := 0
  issuedAt := now
  notAfter := now
  decisionTtlS := 0
  links := [l]
  trafficClasses := [c]
  rules := [rule]

/-- At any clock. -/
theorem decide_single_at (rt : Runtime) (evidence : EvidenceSnapshot) (t now : DateTime) (l : Link)
    (c : TrafficClass) (rule : Rule) : ∃ decision,
    decide rt (single t l c rule) evidence now "" = .ok decision ∧
      decision.evidenceHash = (evidence.asOf now).hash rt ∧
      decision.classes = [eligibility [rule] (evidence.asOf now) now [l] c] := by
  have huntil : validUntil (single t l c rule) now = .ok now :=
    bind_eq_ok_iff.mpr ⟨0, rfl, DateTime.ofUs_eq_ok.mpr (add_zero _).symm⟩
  rw [decide_eq, huntil]
  exact ⟨_, rfl, rfl, rfl⟩

theorem decide_single (rt : Runtime) (evidence : EvidenceSnapshot) (now : DateTime) (l : Link)
    (c : TrafficClass) (rule : Rule) : ∃ decision,
    decide rt (single now l c rule) evidence now "" = .ok decision ∧
      decision.evidenceHash = (evidence.asOf now).hash rt ∧
      decision.classes = [eligibility [rule] (evidence.asOf now) now [l] c] :=
  decide_single_at rt evidence now now l c rule

theorem reasons_single (rule : Rule) (evidence : EvidenceSnapshot) (now : DateTime) (l : Link)
    (c : TrafficClass) : (eligibility [rule] evidence now [l] c).exclusions.map (·.reason) =
      (rule.evaluate l c evidence now).toList := by
  cases h : rule.evaluate l c evidence now <;> simp [eligibility, sortedLinks, reasons, h]

theorem ite_some_eq_iff {α : Type} {P Q : Prop} [Decidable P] [Decidable Q] {a b : α} :
    (if P then some a else none) = (if Q then some b else none) ↔ (P ↔ Q) ∧ (P → a = b) := by
  by_cases hP : P <;> by_cases hQ : Q <;> simp [hP, hQ]

section Blind
variable {rt : Runtime} {evidence : EvidenceSnapshot} {now : DateTime}
  (hblind : OrderBlind rt evidence now)
include hblind

theorem single_of_orderBlind {e₁ e₂ : EvidenceSnapshot}
    (h₁ : e₁.observations.Perm evidence.observations)
    (h₂ : e₂.observations.Perm evidence.observations)
    (rule : Rule) (l : Link) (c : TrafficClass) : (e₁.asOf now).hash rt = (e₂.asOf now).hash rt ∧
      rule.evaluate l c (e₁.asOf now) now = rule.evaluate l c (e₂.asOf now) now := by
  obtain ⟨d₁, hd₁, hhash₁, hclasses₁⟩ := decide_single rt e₁ now l c rule
  obtain ⟨d₂, hd₂, hhash₂, hclasses₂⟩ := decide_single rt e₂ now l c rule
  obtain rfl : d₁ = d₂ := Except.ok.inj (hd₁.symm.trans
    ((hblind _ _ _ e₁ h₁).trans ((hblind _ _ _ e₂ h₂).symm.trans hd₂)))
  have hclass := (List.cons.inj (hclasses₁.symm.trans hclasses₂)).1
  have hreasons := congrArg (fun cls => (cls.exclusions.map (·.reason)).head?) hclass
  simp only [reasons_single, Option.head?_toList] at hreasons
  exact ⟨hhash₁.symm.trans hhash₂, hreasons⟩

/-- No rule tells one of the latest measurements from another: each comes first in some order. -/
theorem evaluate_of_orderBlind {linkId quantity : String} {o p : Observation}
    (ho : (evidence.asOf now).IsLatest linkId quantity o)
    (hp : (evidence.asOf now).IsLatest linkId quantity p) :
    ∃ e₁ e₂ : EvidenceSnapshot, e₁.latest linkId quantity = some o ∧
      e₂.latest linkId quantity = some p ∧
      ∀ (rule : Rule) (l : Link) (c : TrafficClass),
        rule.evaluate l c e₁ now = rule.evaluate l c e₂ now := by
  obtain ⟨e₁, h₁, hlatest₁⟩ := ho.exists_first
  obtain ⟨e₂, h₂, hlatest₂⟩ := hp.exists_first
  exact ⟨e₁.asOf now, e₂.asOf now, hlatest₁, hlatest₂, fun rule l c =>
    (single_of_orderBlind hblind h₁ h₂ rule l c).2⟩

/-- Rows that compare equal are hashed in the order they came in. -/
theorem row_of_orderBlind (hapart : OrdersApart rt (evidence.asOf now)) {o p : Observation}
    (ho : o ∈ (evidence.asOf now).observations) (hp : p ∈ (evidence.asOf now).observations)
    (hkey : rowKey o = rowKey p) : row o = row p := by
  classical
  by_cases hne : p = o
  · rw [hne]
  obtain ⟨ho, hoclock⟩ := asOf_observations.mp ho
  obtain ⟨hp, hpclock⟩ := asOf_observations.mp hp
  -- two orders that differ in these two only, as insertion keeps ties in the order they come in
  have hp' : p ∈ evidence.observations.erase o := (List.mem_erase_of_ne hne).mpr hp
  let rest := (evidence.observations.erase o).erase p
  have h₁ : (EvidenceSnapshot.mk (o :: p :: rest)).observations.Perm evidence.observations :=
    ((List.perm_cons_erase hp').symm.cons o).trans (List.perm_cons_erase ho).symm
  have h₂ : (EvidenceSnapshot.mk (p :: o :: rest)).observations.Perm evidence.observations :=
    (List.Perm.swap o p rest).trans h₁
  have hhash := (single_of_orderBlind hblind h₁ h₂ (.linkDown "") ⟨"", "", false, false, [], ""⟩
    (TrafficClass.ofId "")).1
  have hrows := hapart _ _ (asOf_perm h₁) (asOf_perm h₂) hhash
  rw [asOf_cons hoclock, asOf_cons hpclock, asOf_cons hpclock, asOf_cons hoclock, rows, rows] at hrows
  obtain ⟨s, t, hop, hpo⟩ := Ties.insertionSort_tie rowKey hkey
    ((EvidenceSnapshot.mk rest).asOf now).observations
  rw [hop, hpo, List.map_append, List.map_append, List.append_cancel_left_eq] at hrows
  exact (List.cons.inj hrows).1

/-- A bound between two measurements tells them apart, and so does a reason that reports them. -/
theorem unambiguous_of_orderBlind (hapart : OrdersApart rt (evidence.asOf now)) :
    (evidence.asOf now).Unambiguous where
  up := by
    intro linkId o p ho hp
    obtain ⟨e₁, e₂, h₁, h₂, hrule⟩ := evaluate_of_orderBlind hblind ho hp
    have hdown := hrule (.linkDown "") ⟨linkId, "", false, false, [], ""⟩ (TrafficClass.ofId "")
    simp only [Rule.evaluate, h₁, h₂] at hdown
    constructor
    · intro h
      by_contra hnot
      rw [if_pos h, if_neg hnot] at hdown
      cases hdown
    · intro h
      by_contra hnot
      rw [if_neg hnot, if_pos h] at hdown
      cases hdown
  rtt := by
    intro linkId o p ho hp
    obtain ⟨e₁, e₂, h₁, h₂, hrule⟩ := evaluate_of_orderBlind hblind ho hp
    have hbound (bound : Num) := hrule (.maxRtt "" "") ⟨linkId, "", false, false, [], ""⟩
      { TrafficClass.ofId "" with maxRttMs := some bound }
    simp only [Rule.evaluate, h₁, h₂, TrafficClass.ofId, ne_eq, not_true_eq_false, if_false,
      ite_some_eq_iff] at hbound
    -- each measurement serves as the bound that would tell it from the other
    refine ⟨le_antisymm (not_lt.mp fun h => lt_irrefl _ ((hbound p.value).1.mp h))
      (not_lt.mp fun h => lt_irrefl _ ((hbound o.value).1.mpr h)), fun bound hexceeds => ?_⟩
    have hreason := (hbound bound).2 hexceeds
    simpa using hreason
  quota := by
    intro linkId o p ho hp
    obtain ⟨e₁, e₂, h₁, h₂, hrule⟩ := evaluate_of_orderBlind hblind ho hp
    have hbound (bound : Num) := hrule (.quota "" "" bound) ⟨linkId, "", false, false, [], ""⟩
      (TrafficClass.ofId "")
    simp only [Rule.evaluate, h₁, h₂, ne_eq, not_true_eq_false, if_false, ite_some_eq_iff] at hbound
    refine ⟨le_antisymm ((hbound o.value).1.mp (le_refl _)) ((hbound p.value).1.mpr (le_refl _)), ?_⟩
    have hreason := (hbound o.value).2 (le_refl _)
    simpa using hreason
  rows := fun _ ho _ hp hkey => row_of_orderBlind hblind hapart ho hp hkey

end Blind

/-- Decisions do not depend on the order of the evidence exactly when what is tied in it reads
alike. -/
theorem orderBlind_iff {rt : Runtime} {evidence : EvidenceSnapshot} {now : DateTime}
    (hapart : OrdersApart rt (evidence.asOf now)) :
    OrderBlind rt evidence now ↔ (evidence.asOf now).Unambiguous :=
  ⟨fun hblind => unambiguous_of_orderBlind hblind hapart, orderBlind_of_unambiguous⟩

namespace Sample

/-- A probe reported that a link is down. -/
def downAt (linkId : String) (seconds : UInt16) : Observation :=
  { upAt linkId seconds with value := ⟨.float (.fin 0), rfl⟩ }

/-- What the probe reports of a link at noon, from another source. -/
def alsoUp : Observation := { upAt "fiber0" 0 with source := "agent" }

end Sample

/-- Of two conflicting measurements of one instant the first is used, under one hash. -/
theorem tied_measurements_decide :
    let up := Sample.upAt "fiber0" 0
    let down := Sample.downAt "fiber0" 0
    [down, up].Perm [up, down] ∧ ∃ d d',
      decide standIn (Sample.bundle 1) ⟨[up, down]⟩ (Sample.clock 60) "site-1" = .ok d ∧
      decide standIn (Sample.bundle 1) ⟨[down, up]⟩ (Sample.clock 60) "site-1" = .ok d' ∧
      d.evidenceHash = d'.evidenceHash ∧
      d.permittedFor "bulk" = ["fiber0"] ∧ d'.permittedFor "bulk" = [] := by
  intro up down
  have hperm : [down, up].Perm [up, down] := .swap up down []
  have huntil : validUntil (Sample.bundle 1) (Sample.clock 60) = .ok (Sample.clock 120) :=
    Sample.validUntil_minute rfl
  have hrows : ∀ o ∈ [up, down], ∀ p ∈ [up, down], rowKey o = rowKey p → row o = row p := by
    have hne : rowKey up ≠ rowKey down := by decide +kernel
    simp only [List.forall_mem_cons, List.not_mem_nil, false_imp_iff, implies_true, and_true]
    exact ⟨⟨trivial, fun h => absurd h hne⟩, fun h => absurd h.symm hne⟩
  refine ⟨hperm, ?_⟩
  rw [decide_eq, decide_eq, huntil, Sample.asOf_noon [up, down] (by simp [up, down, Sample.downAt,
    Sample.upAt]), Sample.asOf_noon [down, up] (by simp [up, down, Sample.downAt, Sample.upAt])]
  refine ⟨_, _, rfl, rfl, ?_, by decide +kernel, by decide +kernel⟩
  exact congrArg (fun rows => standIn.digest (.list rows)) (rows_perm hperm hrows).symm

/-- Two sources that report a link up at one instant can be exchanged. -/
theorem orderBlind_iff_sample :
    let evidence : EvidenceSnapshot := ⟨[Sample.upAt "fiber0" 0, Sample.alsoUp]⟩
    OrdersApart standIn (evidence.asOf (Sample.clock 60)) ∧
      OrderBlind standIn evidence (Sample.clock 60) := by
  intro evidence
  have hasOf : evidence.asOf (Sample.clock 60) = evidence :=
    Sample.asOf_noon _ (by simp [Sample.alsoUp, Sample.upAt])
  have hup : ∀ o ∈ evidence.observations, o.quantity = "up" ∧ o.value.toRat = 1 := by
    simp [evidence, Sample.alsoUp, Sample.upAt, Num.toRat]
  have hlatest {linkId quantity : String} {o : Observation}
      (h : evidence.IsLatest linkId quantity o) : quantity = "up" ∧ o.value.toRat = 1 := by
    obtain ⟨hmem, -, hquantity⟩ := mem_candidates.mp h.1
    exact ⟨hquantity.symm.trans (hup o hmem).1, (hup o hmem).2⟩
  have hrows : ∀ o ∈ evidence.observations, ∀ p ∈ evidence.observations,
      rowKey o = rowKey p → row o = row p := by
    have hne : rowKey (Sample.upAt "fiber0" 0) ≠ rowKey Sample.alsoUp := by decide +kernel
    simp only [evidence, List.forall_mem_cons, List.not_mem_nil, false_imp_iff, implies_true,
      and_true]
    exact ⟨⟨trivial, fun h => absurd h hne⟩, fun h => absurd h.symm hne⟩
  have hapart : OrdersApart standIn (evidence.asOf (Sample.clock 60)) := by
    rw [hasOf]
    intro e₁ e₂ h₁ h₂ _
    exact (rows_perm h₁ hrows).trans (rows_perm h₂ hrows).symm
  refine ⟨hapart, (orderBlind_iff hapart).mpr ?_⟩
  rw [hasOf]
  refine ⟨fun _ o p ho hp => ?_, fun _ o p ho _ => ?_, fun _ o p ho _ => ?_, hrows⟩
  · rw [(hlatest ho).2, (hlatest hp).2]
  · exact absurd (hlatest ho).1 (by decide)
  · exact absurd (hlatest ho).1 (by decide)

end Pilotfish
