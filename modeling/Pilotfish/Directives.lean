import Pilotfish.Decide
import Pilotfish.FloorPolicy
import Pilotfish.Signer
import Pilotfish.Ties

/-!
# Directives

An authority may take one link out for a time. A directive becomes one more rule of the bundle,
wherever it is put, and says nothing from its end on.

Results:
1. `decodeDirective_encodeDirective`: what arrives of a directive.
2. `onlyTakesOut`: what the rule of a directive changes about a class.
3. `directive_frame`: what it changes about a decision, sent or not.
-/

namespace Pilotfish
open Python

/-! ## The message -/

/-- A time-bounded human override taking one link out. -/
structure AuthorityDirective (S : Type := String) where
  directiveId : S
  siteId : S
  linkId : S
  reason : S
  notAfter : DateTime

def AuthorityDirective.toRule {S N : Type} (d : AuthorityDirective S) : Rule S N :=
  .directive d.directiveId d.linkId d.reason d.notAfter

def AuthorityDirective.fields {S : Type} [OnWire S] (d : AuthorityDirective S) : Value :=
  .list [OnWire.value d.directiveId, OnWire.value d.siteId, OnWire.value d.linkId,
    OnWire.value d.reason, ts d.notAfter]

def encodeDirective {S : Type} [OnWire S] (rt : Runtime) (d : AuthorityDirective S) : Bytes :=
  rt.encoding d.fields

def decodeDirective (rt : Runtime) (payload : Value) : Except Exc (AuthorityDirective Value) := do
  let f ← rt.loadsValue payload
  return {
    directiveId := ← f.getItem 0
    siteId := ← f.getItem 1
    linkId := ← f.getItem 2
    reason := ← f.getItem 3
    notAfter := ← DateTime.fromtimestamp (← f.getItem 4) }

def AuthorityDirective.toWire (d : AuthorityDirective) : AuthorityDirective Value where
  directiveId := .str d.directiveId
  siteId := .str d.siteId
  linkId := .str d.linkId
  reason := .str d.reason
  notAfter := d.notAfter

/-- A directive with its end cut to the second. -/
def AuthorityDirective.cut (d : AuthorityDirective) : Except Exc AuthorityDirective := do
  return { d with notAfter := ← d.notAfter.cut }

theorem decodeDirective_encodeDirective {rt : Runtime} (laws : rt.Lawful) (d : AuthorityDirective) :
    decodeDirective rt (.bytes (encodeDirective rt d)) = d.cut.map AuthorityDirective.toWire := by
  have hplain : d.fields.plain = true := by simp [AuthorityDirective.fields]
  rw [decodeDirective, Runtime.loadsValue, encodeDirective, laws.loads_dumps _ hplain]
  show (do
    let notAfter ← d.notAfter.cut
    return ({ d.toWire with notAfter := notAfter } : AuthorityDirective Value)) = _
  rw [AuthorityDirective.cut]
  cases d.notAfter.cut <;> rfl

/-- A directive that ends on a whole second arrives as it was. -/
theorem decodeDirective_of_whole {rt : Runtime} (laws : rt.Lawful) {d : AuthorityDirective} {n : Int}
    (h : d.notAfter.us = n * 1000000) :
    decodeDirective rt (.bytes (encodeDirective rt d)) = .ok d.toWire := by
  rw [decodeDirective_encodeDirective laws, AuthorityDirective.cut, DateTime.cut_of_whole h]
  rfl

/-! ## What one rule changes -/

section Rules
variable {d : AuthorityDirective} {before after : List Rule} {evidence : EvidenceSnapshot}
  {now : DateTime} {tclass : TrafficClass} {link : Link}

/-- The exclusion that a directive stands for, while it lasts. -/
def AuthorityDirective.exclusion (d : AuthorityDirective) (now : DateTime) (link : Link) :
    Option Exclusion :=
  if now.us < d.notAfter.us ∧ link.id = d.linkId then
    some ⟨d.linkId, d.directiveId, "authority directive: " ++ d.reason⟩
  else none

theorem exclusion_toRule : (d.toRule.evaluate link tclass evidence now).map
      (fun reason => (⟨link.id, d.directiveId, reason⟩ : Exclusion)) = d.exclusion now link := by
  simp only [AuthorityDirective.toRule, Rule.evaluate, AuthorityDirective.exclusion]
  by_cases hid : link.id = d.linkId
  · by_cases hend : now.us < d.notAfter.us
    · rw [if_neg (by simp [hid, hend]), if_pos ⟨hend, hid⟩, hid]
      rfl
    · rw [if_pos (.inr (not_lt.mp hend)), if_neg (fun h => hend h.1)]
      rfl
  · rw [if_pos (.inl hid), if_neg (fun h => hid h.2)]
    rfl

/-- Among the reasons against a link the directive's stands between those of the other rules. -/
theorem reasons_insert : reasons (before ++ d.toRule :: after) evidence now tclass link =
    reasons before evidence now tclass link ++ (d.exclusion now link).toList ++
      reasons after evidence now tclass link := by
  have hrule : (d.toRule.evaluate link tclass evidence now).map
      (fun reason => (⟨link.id, d.directiveId, reason⟩ : Exclusion)) = d.exclusion now link :=
    exclusion_toRule
  unfold reasons
  rw [List.filterMap_append, List.append_assoc]
  congr 1
  cases hreason : d.toRule.evaluate link tclass evidence now with
  | none =>
    rw [List.filterMap_cons_none (by rw [hreason]; rfl), ← hrule, hreason]
    rfl
  | some reason =>
    rw [List.filterMap_cons_some (by rw [hreason]; rfl), ← hrule, hreason]
    rfl

theorem reasons_append : reasons (before ++ after) evidence now tclass link =
    reasons before evidence now tclass link ++ reasons after evidence now tclass link :=
  List.filterMap_append

theorem admits_insert : admits (before ++ d.toRule :: after) evidence now tclass link =
    (admits (before ++ after) evidence now tclass link && (d.exclusion now link).isNone) := by
  unfold admits
  rw [reasons_insert, reasons_append]
  cases d.exclusion now link with
  | none => simp
  | some e => simp

end Rules

/-! ## What a directive changes about a class -/

/-- One class with the directive among the rules and without it: until the directive ends its link
is taken out of what is permitted, one exclusion for every link of its id, and from then on
nothing is. The exclusions of the other rules stay, in their order. -/
structure OnlyTakesOut (d : AuthorityDirective) (links : List Link) (now : DateTime)
    (cls cls' : ClassEligibility) : Prop where
  classId : cls'.classId = cls.classId
  permitted : cls'.permitted =
    if now.us < d.notAfter.us then cls.permitted.filter (· ≠ d.linkId) else cls.permitted
  kept : cls.exclusions.Sublist cls'.exclusions
  added : cls'.exclusions.Perm (cls.exclusions ++ links.filterMap (d.exclusion now))

theorem onlyTakesOut (d : AuthorityDirective) (before after : List Rule)
    (evidence : EvidenceSnapshot) (now : DateTime) (links : List Link) (tclass : TrafficClass) :
    OnlyTakesOut d links now (eligibility (before ++ after) evidence now links tclass)
      (eligibility (before ++ d.toRule :: after) evidence now links tclass) where
  classId := rfl
  permitted := by
    simp only [eligibility, List.filter_map, List.filter_filter]
    split_ifs with hend
    · congr 1
      refine List.filter_congr ?_
      intro link _
      rw [admits_insert, Bool.and_comm, AuthorityDirective.exclusion]
      by_cases hid : link.id = d.linkId <;> simp [hend, hid]
    · congr 1
      refine List.filter_congr ?_
      intro link _
      rw [admits_insert, AuthorityDirective.exclusion, if_neg (fun h => hend h.1)]
      exact Bool.and_true _
  kept := by
    refine Ties.insertionSort_sublist exclusionKey (List.Sublist.flatMap_right _ ?_)
    intro link _
    rw [reasons_insert, reasons_append]
    exact (List.sublist_append_left _ _).append (List.Sublist.refl _)
  added := by
    have hsort := List.perm_insertionSort fun e f => exclusionKey e ≤ exclusionKey f
    have hreasons : ((sortedLinks links).flatMap
        (reasons (before ++ d.toRule :: after) evidence now tclass)).Perm
        ((sortedLinks links).flatMap (reasons (before ++ after) evidence now tclass) ++
          (sortedLinks links).filterMap (d.exclusion now)) := by
      rw [List.filterMap_eq_flatMap_toList]
      refine (List.Perm.flatMap_left _ ?_).trans (List.flatMap_append_perm _ _ _).symm
      intro link _
      rw [reasons_insert, reasons_append, List.append_assoc, List.append_assoc]
      exact List.perm_append_comm.append_left _
    have hlinks : ((sortedLinks links).filterMap (d.exclusion now)).Perm
        (links.filterMap (d.exclusion now)) := (List.perm_insertionSort _ links).filterMap _
    exact (hsort _).trans (hreasons.trans ((hsort _).symm.append hlinks))

/-! ## What a directive changes about a decision -/

/-- Two decisions that differ in the bundle they name and in one link taken out of every class. -/
structure OnlyTakesOutOf (d : AuthorityDirective) (links : List Link) (now : DateTime)
    (decision decision' : EligibilityDecision) : Prop where
  siteId : decision'.siteId = decision.siteId
  decidedAt : decision'.decidedAt = decision.decidedAt
  validUntil : decision'.validUntil = decision.validUntil
  evidenceHash : decision'.evidenceHash = decision.evidenceHash
  degraded : decision'.degraded = decision.degraded
  classes : List.Forall₂ (OnlyTakesOut d links now) decision.classes decision'.classes

/-- Two calls that both raise the same or both return, and then what is related. -/
def Alike {α : Type} (R : α → α → Prop) : Except Exc α → Except Exc α → Prop
  | .error e, .error e' => e = e'
  | .ok a, .ok b => R a b
  | _, _ => False

theorem onlyTakesOutOf (rt : Runtime) (d : AuthorityDirective) (bundle : PolicyBundle)
    (before after : List Rule) (evidence : EvidenceSnapshot) (now : DateTime) (siteId : String)
    (degraded : Bool) :
    Alike (OnlyTakesOutOf d bundle.links now)
      (decide rt { bundle with rules := before ++ after } evidence now siteId degraded)
      (decide rt { bundle with rules := before ++ d.toRule :: after } evidence now siteId
        degraded) := by
  rw [decide_eq, decide_eq]
  show Alike _ ((validUntil bundle now).map _) ((validUntil bundle now).map _)
  cases validUntil bundle now with
  | error e => exact rfl
  | ok until' =>
    refine ⟨rfl, rfl, rfl, rfl, rfl, ?_⟩
    refine List.forall₂_map_left_iff.mpr (List.forall₂_map_right_iff.mpr ?_)
    exact List.forall₂_same.mpr fun tclass _ =>
      onlyTakesOut d before after (evidence.asOf now) now bundle.links tclass

/-- A directive that is inserted anywhere takes out its link and nothing else, and lapses. So does
one that was sent, if it ends on a whole second. -/
theorem directive_frame {rt : Runtime} (laws : rt.Lawful) (d : AuthorityDirective)
    (bundle : PolicyBundle) (before after : List Rule) (evidence : EvidenceSnapshot)
    (now : DateTime) (siteId : String) (degraded : Bool) :
    let takesOut (rule : Rule) : Prop := Alike (OnlyTakesOutOf d bundle.links now)
      (decide rt { bundle with rules := before ++ after } evidence now siteId degraded)
      (decide rt { bundle with rules := before ++ rule :: after } evidence now siteId degraded)
    takesOut d.toRule ∧ ((∃ n, d.notAfter.us = n * 1000000) →
      ∃ received rule, decodeDirective rt (.bytes (encodeDirective rt d)) = .ok received ∧
        Rule.declared? received.toRule = some rule ∧ takesOut rule) := by
  intro takesOut
  have htakes : takesOut d.toRule :=
    onlyTakesOutOf rt d bundle before after evidence now siteId degraded
  refine ⟨htakes, ?_⟩
  rintro ⟨n, hn⟩
  exact ⟨d.toWire, d.toRule, decodeDirective_of_whole laws hn, rfl, htakes⟩

/-- A directive that was sent takes a link that is up out of the bundle it is put into. -/
theorem directive_frame_sample :
    let d : AuthorityDirective := ⟨"D-1", "site-1", "fiber0", "works on the duct", Sample.clock 120⟩
    let evidence : EvidenceSnapshot := ⟨[Sample.upAt "fiber0" 0]⟩
    ∃ received rule decision decision',
      decodeDirective standIn (.bytes (encodeDirective standIn d)) = .ok received ∧
      Rule.declared? received.toRule = some rule ∧
      decide standIn (Sample.bundle 1) evidence (Sample.clock 60) "site-1" false = .ok decision ∧
      decide standIn { Sample.bundle 1 with rules := [rule, .linkDown "R-DOWN"] } evidence
        (Sample.clock 60) "site-1" false = .ok decision' ∧
      decision.permittedFor "bulk" = ["fiber0"] ∧
      OnlyTakesOutOf d (Sample.bundle 1).links (Sample.clock 60) decision decision' := by
  intro d evidence
  obtain ⟨received, rule, hdecode, hrule, htakes⟩ := (directive_frame lawful_standIn d
    (Sample.bundle 1) [] [.linkDown "R-DOWN"] evidence (Sample.clock 60) "site-1" false).2
    ⟨1787918520, rfl⟩
  have huntil : validUntil (Sample.bundle 1) (Sample.clock 60) = .ok (Sample.clock 120) :=
    Sample.validUntil_minute rfl
  obtain ⟨decision, hdecide, hpermitted⟩ : ∃ decision,
      decide standIn (Sample.bundle 1) evidence (Sample.clock 60) "site-1" false = .ok decision ∧
      decision.permittedFor "bulk" = ["fiber0"] := by
    rw [decide_eq, huntil, Sample.asOf_noon _ (by simp [Sample.upAt])]
    exact ⟨_, rfl, by decide +kernel⟩
  obtain ⟨decision', hdecide'⟩ : ∃ decision', decide standIn
      { Sample.bundle 1 with rules := [rule, .linkDown "R-DOWN"] } evidence (Sample.clock 60)
        "site-1" false = .ok decision' := decide_returns (Sample.validUntil_minute rfl)
  have hsame : (Sample.bundle 1).rules = [] ++ [.linkDown "R-DOWN"] := rfl
  rw [← hsame, hdecide, List.nil_append, hdecide'] at htakes
  exact ⟨received, rule, decision, decision', hdecode, hrule, hdecide, hdecide', hpermitted, htakes⟩

end Pilotfish
