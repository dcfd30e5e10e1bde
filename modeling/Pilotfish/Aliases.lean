import Pilotfish.Publication
import Pilotfish.FloorPolicy
import Pilotfish.EffectAudit

/-!
# Identifiers that do not identify

A decision names classes and links by their ids. Who asks for a class takes the first of its id,
a dict of the classes keeps the last, and an exclusion names a link that may be permitted under the
same id. Nothing on the way from the payload to the decision asks for ids to be distinct.

Results:
1. `permittedFor_of_nodup`, `cycle_endsEnforced`: what distinct class ids are enough for.
2. `unaliased_iff`: when a decision under an accepted bundle speaks of one thing under each id.
-/

namespace Pilotfish
open Python

/-! ## The readers of a decision -/

/-- Each class has an id of its own, under which all readers find its links; none of these is
excluded. -/
structure Unaliased (decision : EligibilityDecision) : Prop where
  classes : (decision.classes.map (·.classId)).Nodup
  links : ∀ cls ∈ decision.classes, ∀ e ∈ cls.exclusions, e.linkId ∉ cls.permitted
  asked : ∀ cls ∈ decision.classes, decision.permittedFor cls.classId = cls.permitted
  held : ∀ cls ∈ decision.classes,
    (cls.classId, cls.permitted) ∈ NoopDataplane.state decision.classes

theorem permittedFor_of_nodup {decision : EligibilityDecision}
    (h : (decision.classes.map (·.classId)).Nodup) {cls : ClassEligibility}
    (hcls : cls ∈ decision.classes) : decision.permittedFor cls.classId = cls.permitted := by
  rw [EligibilityDecision.permittedFor]
  cases hfind : decision.classes.find? (·.classId = cls.classId) with
  | none =>
    have hother := List.find?_eq_none.mp hfind cls hcls
    simp at hother
  | some first =>
    have hid : first.classId = cls.classId := by simpa using List.find?_some hfind
    rw [List.inj_on_of_nodup_map h (List.mem_of_find?_eq_some hfind) hcls hid]

/-- The last receipt says that the decision is enforced, and the turn returns it. -/
def EndsEnforced {rt : Runtime} {sink : ReadableSink} (env : Environment) (siteId : String)
    (now : DateTime) (a : Agent rt sink) (decision : EligibilityDecision) : Prop :=
  ∃ entry before receipt after, recordEntry entry before = (.ok receipt, after) ∧
    entry.kind = kindEffect ∧ entry.outcome = outcomeEnforced ∧ entry.decision = decision ∧
    runOnce env siteId now a = (.ok decision, after)

/-- A dataplane that accepts every decision and reports what it accepted. -/
structure OverNoop (env : Environment) : Prop where
  apply : ∀ decision, (env.apply decision).result = .ok ()
  readback : ∀ decision,
    (env.readback decision).result = .ok (NoopDataplane.readback decision.classes)

section Cycle
variable {rt : Runtime} (laws : rt.Lawful) {sink : ReadableSink}
  {holds : sink.State → List Bytes → Prop} (lawful : sink.Lawful holds)
  (accepting : sink.Accepting holds) {a : Agent rt sink} {log : List Bytes} {env : Environment}
  {siteId : String} {now : DateTime} {decision : EligibilityDecision}
include laws lawful accepting

/-- Over such a dataplane a turn whose classes have distinct ids ends enforced. -/
theorem cycle_endsEnforced (hlog : holds a.log log) (hcounts : Counts a.chain)
    (hnoop : OverNoop env) {observations : List Observation} {bundle : WireBundle} {degraded : Bool}
    (hcurrent : a.store.current now = (bundle, degraded))
    (hobserve : env.observe.result = .ok observations)
    (hdecide : decideUnder rt env bundle ⟨observations⟩ now siteId degraded = .ok decision)
    (hids : (decision.classes.map (·.classId)).Nodup) : EndsEnforced env siteId now a decision := by
  have hready : Ready holds a.chain log a := ⟨hlog, rfl, rfl⟩
  obtain ⟨a', log', hreached, hready', hcounts'⟩ :=
    authorise_returns laws lawful accepting hready hcounts hcurrent hobserve hdecide
  obtain ⟨before, observedStateHash, receipt, after, hrecord, henforce⟩ :=
    enforce_conforming laws accepting hready' hcounts' (hnoop.apply decision)
      (hnoop.readback decision) (auditable_declared _ declared_ofRows _)
      (NoopDataplane.conforms_readback hids)
  refine ⟨_, before, receipt, after, hrecord, rfl, rfl, rfl, ?_⟩
  rw [runOnce_of_authorise hreached]
  exact henforce

end Cycle

/-! ## Decisions under an accepted bundle -/

/-- While the bundle of a store is valid, the cycles that decide so over such a dataplane end
enforced. -/
def CyclesEnforced {rt : Runtime} (store : BundleStore rt) (bundle : WireBundle)
    (evidence : EvidenceSnapshot) (now : DateTime) (siteId : String)
    (decision : EligibilityDecision) : Prop :=
  now.us < bundle.notAfter.us →
  ∀ {sink : ReadableSink} {holds : sink.State → List Bytes → Prop}, sink.Lawful holds →
    sink.Accepting holds → ∀ (a : Agent rt sink) (log : List Bytes) (env : Environment),
    a.store = store → holds a.log log → Counts a.chain → OverNoop env →
    env.observe.result = .ok evidence.observations → EndsEnforced env siteId now a decision

/-- The class ids are distinct, and no class admits one of the links that share an id and not the
others. -/
structure Identifies (bundle : PolicyBundle) (evidence : EvidenceSnapshot) (now : DateTime) :
    Prop where
  classes : (bundle.trafficClasses.map (·.id)).Nodup
  links : ∀ c ∈ bundle.trafficClasses, ∀ l ∈ bundle.links, ∀ l' ∈ bundle.links, l.id = l'.id →
    admits bundle.rules (evidence.asOf now) now c l = admits bundle.rules (evidence.asOf now) now c l'

/-- Distinct ids do. -/
theorem identifies_of_nodup {bundle : PolicyBundle} (evidence : EvidenceSnapshot) (now : DateTime)
    (hclasses : (bundle.trafficClasses.map (·.id)).Nodup)
    (hlinks : (bundle.links.map (·.id)).Nodup) : Identifies bundle evidence now where
  classes := hclasses
  links := by
    intro c _ l hl l' hl' hid
    rw [List.inj_on_of_nodup_map hlinks hl hl' hid]

section Decided
variable {rt : Runtime} {bundle : PolicyBundle} {evidence : EvidenceSnapshot} {now : DateTime}
  {siteId : String} {degraded : Bool} {decision : EligibilityDecision}
  (hdecide : decide rt bundle evidence now siteId degraded = .ok decision)
include hdecide

theorem nodup_classIds : (decision.classes.map (·.classId)).Nodup ↔
    (bundle.trafficClasses.map (·.id)).Nodup := by
  rw [(decide_ok hdecide).2.2.2.2.2.2, List.map_map]
  exact ((List.perm_insertionSort _ bundle.trafficClasses).map TrafficClass.id).nodup_iff

/-- Nothing that is excluded is permitted exactly when links of one id are admitted together. -/
theorem excluded_notMem_iff : (∀ cls ∈ decision.classes, ∀ e ∈ cls.exclusions,
      e.linkId ∉ cls.permitted) ↔
    ∀ c ∈ bundle.trafficClasses, ∀ l ∈ bundle.links, ∀ l' ∈ bundle.links, l.id = l'.id →
      admits bundle.rules (evidence.asOf now) now c l =
        admits bundle.rules (evidence.asOf now) now c l' := by
  constructor
  · intro h c hc l hl l' hl' hid
    have hcls := h _ ((mem_classes hdecide).mpr ⟨c, hc, rfl⟩)
    -- of two that are told apart, one is permitted and the other excluded, under one id
    have hapart {m m' : Link} (hm : m ∈ bundle.links) (hm' : m' ∈ bundle.links)
        (hsame : m'.id = m.id) (hadmits : admits bundle.rules (evidence.asOf now) now c m = true) :
        admits bundle.rules (evidence.asOf now) now c m' = true := by
      by_contra hrefused
      obtain ⟨e, he, heid⟩ := mem_exclusions.mpr ⟨m', hm', hsame, Bool.not_eq_true _ ▸ hrefused⟩
      exact hcls e he (heid ▸ mem_permitted.mpr ⟨m, hm, rfl, hadmits⟩)
    exact Bool.eq_iff_iff.mpr ⟨hapart hl hl' hid.symm, hapart hl' hl hid⟩
  · intro h cls hcls e he hpermitted
    obtain ⟨c, hc, rfl⟩ := (mem_classes hdecide).mp hcls
    obtain ⟨l', hl', hid', hrefused⟩ := mem_exclusions.mp ⟨e, he, rfl⟩
    obtain ⟨l, hl, hid, hadmits⟩ := mem_permitted.mp hpermitted
    rw [h c hc l hl l' hl' (hid.trans hid'.symm), hrefused] at hadmits
    cases hadmits

theorem unaliased_decision : Unaliased decision ↔ Identifies bundle evidence now := by
  constructor
  · intro h
    exact ⟨(nodup_classIds hdecide).mp h.classes, (excluded_notMem_iff hdecide).mp h.links⟩
  · intro h
    have hids := (nodup_classIds hdecide).mpr h.classes
    refine ⟨hids, (excluded_notMem_iff hdecide).mpr h.links, ?_, ?_⟩
    · exact fun cls hcls => permittedFor_of_nodup hids hcls
    · intro cls hcls
      rw [NoopDataplane.state_of_nodup hids]
      exact List.mem_map_of_mem hcls

end Decided

/-- Under a bundle that a store accepted, a decision speaks of one class and one link under each
id, and the cycles over a dataplane that reports what it was told end enforced, exactly when the
bundle's ids identify. -/
theorem unaliased_iff {rt : Runtime} (laws : rt.Lawful) {s store : BundleStore rt}
    {epochs epochs' : EpochStore} {faults : EpochFaults} {envelopeBytes : Bytes} {accepted : DateTime}
    {w : WireBundle} (haccept : s.accept epochs faults envelopeBytes accepted =
      (.ok w, store, epochs')) {bundle : PolicyBundle} (hdeclared : w.declared? = some bundle)
    {evidence : EvidenceSnapshot} {now : DateTime} {siteId : String} {decision : EligibilityDecision}
    (hdecide : decide rt bundle evidence now siteId false = .ok decision) :
    Unaliased decision ∧ CyclesEnforced store w evidence now siteId decision ↔
      Identifies bundle evidence now := by
  rw [← unaliased_decision hdecide]
  refine and_iff_left_of_imp ?_
  intro hunaliased hvalid sink holds lawful accepting a log env hstore hlog hcounts hnoop hobserve
  obtain ⟨envelope, -, -, -, hafter⟩ := BundleStore.accept_ok (congrArg Prod.fst haccept)
  rw [haccept] at hafter
  have hinstalled : store = s.install w envelope.nonce := congrArg Prod.fst hafter
  have hbundle : store.bundle = some w := congrArg BundleStore.bundle hinstalled
  have hcurrent : a.store.current now = (w, false) := by
    rw [hstore]
    exact BundleStore.current_not_degraded.mpr ⟨hbundle, hvalid⟩
  have hunder : decideUnder rt env w ⟨evidence.observations⟩ now siteId false = .ok decision := by
    rw [decideUnder, hdeclared]
    exact hdecide
  exact cycle_endsEnforced laws lawful accepting hlog hcounts hnoop hcurrent hobserve hunder
    hunaliased.classes

namespace Sample

/-- A metered link under the id of one that is not. -/
def wan (metered : Bool) : Link := ⟨"wan", "lte", metered, false, [], ""⟩

def unmetered : TrafficClass := { TrafficClass.ofId "voice" with allowMetered := false }

def aliasBundle : PolicyBundle :=
  { bundle 1 with
    links := [wan false, wan true]
    trafficClasses := [unmetered]
    rules := [.metered "R-METERED" "voice"] }

theorem cut_aliasBundle : aliasBundle.cut = .ok aliasBundle :=
  PolicyBundle.cut_eq_ok_iff.mpr ⟨cut_clock 0, cut_clock 21600, rfl, rfl⟩

end Sample

/-- A metered link is permitted under the id of another, and excluded under it. -/
theorem alias_permitted : ∃ start store epochs' decision,
    BundleStore.init (standIn.publicKey Sample.signer.key) "authority-1" "site-1" Sample.signedFloor
      none (.memory (.int (-1))) none = .ok start ∧
    start.accept (.memory (.int (-1))) {} (Sample.delivery Sample.aliasBundle).envelopeBytes
      (Sample.clock 60) = (.ok Sample.aliasBundle.toWire, store, epochs') ∧
    decide standIn Sample.aliasBundle ⟨[]⟩ (Sample.clock 60) "site-1" false = .ok decision ∧
    (∃ cls ∈ decision.classes, "wan" ∈ cls.permitted ∧ ∃ e ∈ cls.exclusions, e.linkId = "wan") ∧
    ¬Unaliased decision := by
  have hread : (EpochStore.memory (.int (-1))).read = .ok (.int (-1)) := rfl
  obtain ⟨floor, hinit⟩ := Sample.init_ok hread
  have haccept := Sample.accept_delivery floor Sample.cut_aliasBundle rfl rfl (by decide)
  obtain ⟨decision, hdecide⟩ : ∃ decision, decide standIn Sample.aliasBundle ⟨[]⟩ (Sample.clock 60)
      "site-1" false = .ok decision := decide_returns (Sample.validUntil_minute rfl)
  have hcls := (mem_classes hdecide).mpr ⟨Sample.unmetered, List.mem_singleton_self _, rfl⟩
  have hpermitted := mem_permitted.mpr ⟨Sample.wan false,
    (List.mem_cons_self : _ ∈ Sample.aliasBundle.links), rfl,
    (by decide +kernel : admits Sample.aliasBundle.rules ((EvidenceSnapshot.mk []).asOf
      (Sample.clock 60)) (Sample.clock 60) Sample.unmetered (Sample.wan false) = true)⟩
  obtain ⟨e, he, hid⟩ := mem_exclusions.mpr ⟨Sample.wan true,
    (List.mem_cons_of_mem _ List.mem_cons_self : _ ∈ Sample.aliasBundle.links), rfl,
    (by decide +kernel : admits Sample.aliasBundle.rules ((EvidenceSnapshot.mk []).asOf
      (Sample.clock 60)) (Sample.clock 60) Sample.unmetered (Sample.wan true) = false)⟩
  refine ⟨_, _, _, decision, hinit, haccept, hdecide, ⟨_, hcls, hpermitted, e, he, hid⟩, ?_⟩
  intro hunaliased
  have hnot := hunaliased.links _ hcls e he
  rw [hid] at hnot
  exact hnot hpermitted

/-- Under distinct ids nothing is. -/
theorem unaliased_sample : ∃ start store epochs' decision,
    BundleStore.init (standIn.publicKey Sample.signer.key) "authority-1" "site-1" Sample.signedFloor
      none (.memory (.int (-1))) none = .ok start ∧
    start.accept (.memory (.int (-1))) {} (Sample.delivery (Sample.bundle 1)).envelopeBytes
      (Sample.clock 60) = (.ok (Sample.bundle 1).toWire, store, epochs') ∧
    decide standIn (Sample.bundle 1) ⟨[Sample.upAt "fiber0" 0]⟩ (Sample.clock 60) "site-1" false =
      .ok decision ∧
    Unaliased decision ∧ CyclesEnforced store (Sample.bundle 1).toWire ⟨[Sample.upAt "fiber0" 0]⟩
      (Sample.clock 60) "site-1" decision := by
  have hread : (EpochStore.memory (.int (-1))).read = .ok (.int (-1)) := rfl
  obtain ⟨floor, hinit⟩ := Sample.init_ok hread
  have haccept := Sample.accept_delivery floor (Sample.cut_bundle 1) rfl rfl (by decide)
  obtain ⟨decision, hdecide, -⟩ := Sample.agent_decides
  refine ⟨_, _, _, decision, hinit, haccept, hdecide, ?_⟩
  exact (unaliased_iff lawful_standIn haccept (PolicyBundle.declared?_toWire _) hdecide).mpr
    (identifies_of_nodup _ _ (by decide) (by decide))

end Pilotfish
