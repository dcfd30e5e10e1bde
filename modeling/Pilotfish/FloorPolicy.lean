import Pilotfish.Decide
import Pilotfish.Signer

/-!
# What the floor refuses

The floor's rules are made of the classes it is built for, and a rule bound to a class reads the
class again. A class that tolerates metered paths therefore has them under the floor too.

Results:
1. `admits_floorRules`: the floor admits a link to a class exactly when the link is up, is not
   free-space optics and meets what the class itself declares.
2. `floor_refuses_iff`: no metered link and no free-space optics is permitted exactly when no
   link that is admitted has, or shares its id with a link that has, one of the two properties.
3. `floor_refuses_of_intolerant`: which is so when ids are distinct and no class tolerates
   metered paths.
-/

namespace Pilotfish
open Python

/-- The bundle a floor is: as it was built, or as it was read from the wire. -/
def IsFloor (links : List Link) (now : Option DateTime) (authorityId : String)
    (trafficClasses : Option (List TrafficClass)) (bundle : PolicyBundle) : Prop :=
  ∃ floor, floorBundle links now authorityId trafficClasses = .ok floor ∧
    (bundle = floor ∨ floor.cut = .ok bundle)

theorem IsFloor.fields {links : List Link} {now : Option DateTime} {authorityId : String}
    {trafficClasses : Option (List TrafficClass)} {bundle : PolicyBundle}
    (h : IsFloor links now authorityId trafficClasses bundle) :
    bundle.links = links ∧ bundle.trafficClasses = floorClasses trafficClasses ∧
    bundle.rules = floorRules (floorClasses trafficClasses) := by
  obtain ⟨floor, hfloor, hread⟩ := h
  obtain ⟨-, -, hlinks, hclasses, hrules⟩ := floorBundle_ok hfloor
  rcases hread with rfl | hcut
  · exact ⟨hlinks, hclasses, hrules⟩
  · obtain ⟨-, -, -, hlinks', hclasses'⟩ := PolicyBundle.cut_fields hcut
    refine ⟨hlinks'.trans hlinks, hclasses'.trans hclasses, ?_⟩
    have hcutRules := (PolicyBundle.cut_eq_ok_iff.mp hcut).2.2.1
    rw [hrules, mapM_cut_floorRules] at hcutRules
    exact (Except.ok.inj hcutRules).symm

/-! ## What the floor admits -/

/-- A link is observed up, is not free-space optics, and meets what a class declares. -/
structure FloorAdmits (evidence : EvidenceSnapshot) (c : TrafficClass) (l : Link) : Prop where
  up : ∃ o, evidence.latest l.id "up" = some o ∧ 1 ≤ o.value.toRat
  type : l.type ≠ "fso"
  metered : l.metered = true → c.allowMetered = true
  rtt : ∀ bound, c.maxRttMs = some bound →
    ∃ o, evidence.latest l.id "rtt_ms" = some o ∧ o.value.toRat ≤ bound.toRat
  jurisdictions : ∀ allowed, c.allowedJurisdictions = some allowed →
    l.jurisdictions ≠ [] ∧ ∀ j ∈ l.jurisdictions, j ∈ allowed
  encryption : c.requiresEncryption = true → l.encryptedBelow = true

section Floor
variable {classes : List TrafficClass} {c : TrafficClass} {l : Link} {evidence : EvidenceSnapshot}
  {now : DateTime}

theorem mem_floorRulesOf {rule : Rule} : rule ∈ floorRulesOf c ↔
    rule = .metered ("FLOOR-METER-" ++ c.id) c.id ∨
    (c.maxRttMs.isSome = true ∧ rule = .maxRtt ("FLOOR-RTT-" ++ c.id) c.id) ∨
    (c.allowedJurisdictions.isSome = true ∧ rule = .jurisdiction ("FLOOR-JUR-" ++ c.id) c.id) ∨
    (c.requiresEncryption = true ∧ rule = .encryption ("FLOOR-ENC-" ++ c.id) c.id) := by
  simp only [floorRulesOf, List.mem_append, List.mem_cons, List.mem_ite_nil_right,
    List.not_mem_nil, or_false, List.cons_append, or_assoc]

/-- The rules made of any class say nothing against a link that meets the class's own
constraints: bound to its id they are these, bound to another they do not apply. -/
theorem evaluate_floorRulesOf {d : TrafficClass} (h : FloorAdmits evidence c l) :
    ∀ rule ∈ floorRulesOf d, rule.evaluate l c evidence now = none := by
  intro rule hrule
  rw [mem_floorRulesOf] at hrule
  by_cases hid : c.id = d.id
  · rw [← hid] at hrule
    rcases hrule with rfl | ⟨-, rfl⟩ | ⟨-, rfl⟩ | ⟨-, rfl⟩
    · exact Rule.evaluate_metered.mpr h.metered
    · exact Rule.evaluate_maxRtt.mpr h.rtt
    · exact Rule.evaluate_jurisdiction.mpr h.jurisdictions
    · exact Rule.evaluate_encryption.mpr h.encryption
  · rcases hrule with rfl | ⟨-, rfl⟩ | ⟨-, rfl⟩ | ⟨-, rfl⟩
    · exact (Rule.evaluate_other_class hid).2.1
    · exact (Rule.evaluate_other_class hid).1
    · exact (Rule.evaluate_other_class hid).2.2.1
    · exact (Rule.evaluate_other_class hid).2.2.2

theorem admits_floorRules (hc : c ∈ classes) :
    admits (floorRules classes) evidence now c l = true ↔ FloorAdmits evidence c l := by
  rw [admits_iff]
  constructor
  · intro h
    have hown (rule : Rule) (hrule : rule ∈ floorRulesOf c) :
      rule.evaluate l c evidence now = none :=
      h rule (.tail _ (.tail _ (mem_floorClassRules.mpr ⟨c, hc, hrule⟩)))
    refine ⟨Rule.evaluate_linkDown.mp (h _ List.mem_cons_self),
      Rule.evaluate_linkType.mp (h _ (.tail _ List.mem_cons_self)),
      Rule.evaluate_metered.mp (hown _ List.mem_cons_self), fun bound hbound => ?_,
      fun allowed hallowed => ?_, fun hencryption => ?_⟩
    · have hrule := mem_floorRulesOf.mpr (.inr (.inl ⟨Option.isSome_of_eq_some hbound, rfl⟩))
      exact Rule.evaluate_maxRtt.mp (hown _ hrule) bound hbound
    · have hrule :=
        mem_floorRulesOf.mpr (.inr (.inr (.inl ⟨Option.isSome_of_eq_some hallowed, rfl⟩)))
      exact Rule.evaluate_jurisdiction.mp (hown _ hrule) allowed hallowed
    · have hrule := mem_floorRulesOf.mpr (.inr (.inr (.inr ⟨hencryption, rfl⟩)))
      exact Rule.evaluate_encryption.mp (hown _ hrule) hencryption
  · intro h rule hrule
    rcases List.mem_cons.mp hrule with rfl | hrule
    · exact Rule.evaluate_linkDown.mpr h.up
    rcases List.mem_cons.mp hrule with rfl | hrule
    · exact Rule.evaluate_linkType.mpr h.type
    · obtain ⟨d, -, hd⟩ := mem_floorClassRules.mp hrule
      exact evaluate_floorRulesOf h rule hd

end Floor

/-! ## What a decision under the floor permits -/

/-- A decision permits no metered link and no free-space optics to any class. -/
def Refuses (links : List Link) (decision : EligibilityDecision) : Prop :=
  ∀ cls ∈ decision.classes, ∀ l ∈ links, l.id ∈ cls.permitted → l.metered = false ∧ l.type ≠ "fso"

section Decision
variable {rt : Runtime} {links : List Link} {issued : Option DateTime} {authorityId siteId : String}
  {trafficClasses : Option (List TrafficClass)} {bundle : PolicyBundle}
  {evidence : EvidenceSnapshot}
  {now : DateTime} {degraded : Bool} {decision : EligibilityDecision}

/-- Under the floor an id is permitted to some class exactly when a link of that id is admitted to
one. -/
theorem permitted_floor (hfloor : IsFloor links issued authorityId trafficClasses bundle)
    (h : decide rt bundle evidence now siteId degraded = .ok decision) {id : String} :
    (∃ cls ∈ decision.classes, id ∈ cls.permitted) ↔
    ∃ c ∈ floorClasses trafficClasses, ∃ l ∈ links, l.id = id ∧
      FloorAdmits (evidence.asOf now) c l := by
  obtain ⟨hlinks, hclasses, hrules⟩ := hfloor.fields
  simp only [mem_classes h, hlinks, hclasses, hrules]
  constructor
  · rintro ⟨-, ⟨c, hc, rfl⟩, hpermitted⟩
    obtain ⟨l, hl, hid, hadmits⟩ := mem_permitted.mp hpermitted
    exact ⟨c, hc, l, hl, hid, (admits_floorRules hc).mp hadmits⟩
  · rintro ⟨c, hc, l, hl, hid, hadmits⟩
    exact ⟨_, ⟨c, hc, rfl⟩, mem_permitted.mpr ⟨l, hl, hid, (admits_floorRules hc).mpr hadmits⟩⟩

/-- No metered link and no free-space optics is permitted exactly when no link that is admitted
to a class shares its id with such a link, itself included. -/
theorem floor_refuses_iff (hfloor : IsFloor links issued authorityId trafficClasses bundle)
    (h : decide rt bundle evidence now siteId degraded = .ok decision) :
    Refuses links decision ↔
    ∀ c ∈ floorClasses trafficClasses, ∀ l ∈ links, FloorAdmits (evidence.asOf now) c l →
      ∀ l' ∈ links, l'.id = l.id → l'.metered = false ∧ l'.type ≠ "fso" := by
  constructor
  · intro hrefuses c hc l hl hadmits l' hl' hid
    obtain ⟨cls, hcls, hpermitted⟩ :=
      (permitted_floor hfloor h).mpr ⟨c, hc, l, hl, hid.symm, hadmits⟩
    exact hrefuses cls hcls l' hl' hpermitted
  · intro hspared cls hcls l' hl' hpermitted
    obtain ⟨c, hc, l, hl, hid, hadmits⟩ := (permitted_floor hfloor h).mp ⟨cls, hcls, hpermitted⟩
    exact hspared c hc l hl hadmits l' hl' hid.symm

/-- The floor refuses both where ids are distinct and no class tolerates metered paths. -/
theorem floor_refuses_of_intolerant
    (hfloor : IsFloor links issued authorityId trafficClasses bundle)
    (h : decide rt bundle evidence now siteId degraded = .ok decision)
    (hids : ∀ l ∈ links, ∀ l' ∈ links, l'.id = l.id → l' = l)
    (hclasses : ∀ c ∈ floorClasses trafficClasses, c.allowMetered = false) :
    Refuses links decision := by
  intro cls hcls l' hl' hpermitted
  obtain ⟨c, hc, l, hl, hid, hadmits⟩ := (permitted_floor hfloor h).mp ⟨cls, hcls, hpermitted⟩
  obtain rfl := hids l hl l' hl' hid.symm
  refine ⟨?_, hadmits.type⟩
  cases hmetered : l'.metered with
  | false => rfl
  | true => exact absurd (hadmits.metered hmetered) (by simp [hclasses c hc])

end Decision

namespace Sample

/-- A probe reported that a link is up. -/
def upAt (linkId : String) (seconds : UInt16) : Observation where
  linkId := linkId
  quantity := "up"
  value := ⟨.float (.fin 1), rfl⟩
  atTime := clock seconds
  source := "probe"

/-- Measurements made at noon are all in what is decided on a minute later. -/
theorem asOf_noon (os : List Observation) (h : ∀ o ∈ os, o.atTime = clock 0) :
    (EvidenceSnapshot.mk os).asOf (clock 60) = ⟨os⟩ := by
  have hhorizon : (clock 0).timestamp ≤ horizon (clock 60) :=
    timestamp_cut_le_horizon (by decide : (clock 0).us ≤ (clock 60).us) (cut_clock 0)
  rw [EvidenceSnapshot.asOf, List.filter_eq_self.mpr fun o ho => by simpa [h o ho] using hhorizon]

theorem latest_upAt (linkId : String) :
    ((EvidenceSnapshot.mk [upAt linkId 0]).asOf (clock 60)).latest
    linkId "up" = some (upAt linkId 0) := by
  rw [asOf_noon _ (by simp [upAt])]
  simp [EvidenceSnapshot.latest, EvidenceSnapshot.candidates, upAt]

/-- A minute of validity. -/
theorem validUntil_minute {bundle : PolicyBundle} (h : bundle.decisionTtlS = 60) :
    validUntil bundle (clock 60) = .ok (clock 120) := by
  rw [validUntil, h]
  exact bind_eq_ok_iff.mpr ⟨60000000, rfl, DateTime.ofUs_eq_ok.mpr rfl⟩

/-- A floor that is read as it was built, and a decision under it a minute later. -/
theorem floor_decides (links : List Link) (classes : List TrafficClass)
    (evidence : EvidenceSnapshot) : ∃ floor decision,
      floorBundle links (some (clock 0)) "authority-1" (some classes) = .ok floor ∧
      floor.cut = .ok floor ∧
      decide standIn floor evidence (clock 60) "site-1" true = .ok decision := by
  obtain ⟨floor, hfloor, hcut⟩ : ∃ floor, floorBundle links (some (clock 0)) "authority-1"
      (some classes) = .ok floor ∧ floor.cut = .ok floor :=
    floorBundle_whole (n := 1787918400) rfl (by decide) _ _ _
  obtain ⟨decision, hdecision⟩ : ∃ decision,
      decide standIn floor evidence (clock 60) "site-1" true = .ok decision :=
    decide_returns (validUntil_minute (decisionTtlS_floorBundle hfloor))
  exact ⟨floor, decision, hfloor, hcut, hdecision⟩

/-- A link that is up, and of a site's own, meets a class that declares nothing. -/
theorem floorAdmits_up (l : Link) (htype : l.type ≠ "fso") :
    FloorAdmits ((EvidenceSnapshot.mk [upAt l.id 0]).asOf (clock 60))
    (TrafficClass.ofId "bulk") l where
  up := ⟨upAt l.id 0, latest_upAt l.id, le_refl _⟩
  type := htype
  metered := fun _ => rfl
  rtt := by rintro _ ⟨⟩
  jurisdictions := by rintro _ ⟨⟩
  encryption := by rintro ⟨⟩

end Sample

/-- A class that declares nothing is permitted a metered link under the floor. -/
theorem floor_permits_metered : ∃ floor decision,
    floorBundle [Sample.lte0] (some (Sample.clock 0)) "authority-1"
      (some [TrafficClass.ofId "bulk"]) = .ok floor ∧
    decide standIn floor ⟨[Sample.upAt "lte0" 0]⟩ (Sample.clock 60) "site-1" true = .ok decision ∧
    ¬ Refuses [Sample.lte0] decision := by
  obtain ⟨floor, decision, hfloor, -, hdecision⟩ := Sample.floor_decides [Sample.lte0]
    [TrafficClass.ofId "bulk"] ⟨[Sample.upAt "lte0" 0]⟩
  refine ⟨floor, decision, hfloor, hdecision, ?_⟩
  intro hrefuses
  obtain ⟨cls, hcls, hpermitted⟩ := (permitted_floor ⟨floor, hfloor, .inl rfl⟩ hdecision).mpr
    ⟨_, List.mem_singleton_self _, Sample.lte0, List.mem_singleton_self _, rfl,
      Sample.floorAdmits_up Sample.lte0 (by decide)⟩
  have hunmetered := (hrefuses cls hcls Sample.lte0 (List.mem_singleton_self _) hpermitted).1
  exact absurd hunmetered (by decide)

/-- A class that does not tolerate metered paths is permitted none. -/
theorem floor_refuses_iff_sample : ∃ floor decision,
    floorBundle [Sample.lte0] (some (Sample.clock 0)) "authority-1" (some [defaultClass]) = .ok floor ∧
    decide standIn floor ⟨[Sample.upAt "lte0" 0]⟩ (Sample.clock 60) "site-1" true = .ok decision ∧
    Refuses [Sample.lte0] decision := by
  obtain ⟨floor, decision, hfloor, -, hdecision⟩ := Sample.floor_decides [Sample.lte0] [defaultClass]
    ⟨[Sample.upAt "lte0" 0]⟩
  refine ⟨floor, decision, hfloor, hdecision,
    (floor_refuses_iff ⟨floor, hfloor, .inl rfl⟩ hdecision).mpr ?_⟩
  simp only [floorClasses, List.forall_mem_singleton]
  intro hadmits
  exact absurd (hadmits.metered rfl) (by decide)

end Pilotfish
