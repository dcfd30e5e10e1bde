import Pilotfish.EffectAudit
import Pilotfish.FloorStrictness
import Pilotfish.Governance
import Pilotfish.Ties

/-!
# The degraded policy, end to end

An authority builds a floor of a site's links and classes, signs it and sends it. The site
installs it when its store is built, takes deliveries, and decides under it whenever no bundle is
in force. By then the floor has been through two encodings, and each of its rules is evaluated
against each of its classes.

Results:
1. `find_sortedClasses`: the first class of an id is the same once the classes are sorted.
2. `permitsDeclared_floor`: what a decision under a floor permits is what links and classes
   declare.
3. `held_floor_run`: deliveries leave the floor as it was installed.
4. `degraded_permits`: from the signed floor to the permitted sets.
-/

namespace Pilotfish
open Python

/-! ## What is declared -/

/-- Every class has its entry, in the order of the ids. An id that is asked for is answered by
the first class of that id. Only known links are permitted, each where the class and the link
declare it. -/
structure PermitsDeclared (links : List Link) (classes : List TrafficClass)
    (evidence : EvidenceSnapshot) (decision : EligibilityDecision)
    (entry : TrafficClass → ClassEligibility) : Prop where
  entries : decision.classes = (sortedClasses classes).map entry
  named : ∀ c ∈ classes, (entry c).classId = c.id
  asked : ∀ classId, decision.permittedFor classId =
    ((classes.find? (·.id = classId)).map fun c => (entry c).permitted).getD []
  known : ∀ c ∈ classes, ∀ id ∈ (entry c).permitted, ∃ l ∈ links, l.id = id
  permitted : ∀ c ∈ classes, ∀ l ∈ links,
    l.id ∈ (entry c).permitted ↔ FloorAdmits evidence c l

theorem find_sortedClasses (classes : List TrafficClass) (classId : String) :
    (sortedClasses classes).find? (·.id = classId) = classes.find? (·.id = classId) := by
  rw [← List.head?_filter, ← List.head?_filter]
  exact congrArg List.head? (Ties.filter_insertionSort TrafficClass.id classId classes)

section Floor
variable {rt : Runtime} {links : List Link} {issued : Option DateTime} {authorityId siteId : String}
  {classes : List TrafficClass} {bundle : PolicyBundle} {evidence : EvidenceSnapshot}
  {now : DateTime} {degraded : Bool} {decision : EligibilityDecision}

/-- A class of the floor is permitted the links that its own rules spare. -/
theorem mem_permitted_floor (hids : (links.map (·.id)).Nodup) {c : TrafficClass} (hc : c ∈ classes)
    {l : Link} (hl : l ∈ links) :
    l.id ∈ (eligibility (floorRules classes) evidence now links c).permitted ↔
    FloorAdmits evidence c l := by
  rw [mem_permitted]
  constructor
  · rintro ⟨m, hm, hid, hadmits⟩
    obtain rfl := List.inj_on_of_nodup_map hids hm hl hid
    exact (admits_floorRules hc).mp hadmits
  · intro h
    exact ⟨l, hl, rfl, (admits_floorRules hc).mpr h⟩

theorem permitsDeclared_floor (hfloor : IsFloor links issued authorityId (some classes) bundle)
    (hids : (links.map (·.id)).Nodup) (hclasses : classes ≠ [])
    (h : decide rt bundle evidence now siteId degraded = .ok decision) :
    ∃ entry, PermitsDeclared links classes (evidence.asOf now) decision entry := by
  obtain ⟨hlinks, htraffic, hrules⟩ := hfloor.fields
  obtain ⟨c, hc⟩ := List.exists_mem_of_ne_nil _ hclasses
  rw [floorClasses_of_mem hc] at htraffic hrules
  have hentries := (decide_ok h).2.2.2.2.2.2
  have hfind := find_class h
  rw [htraffic, hrules, hlinks] at hentries
  simp only [htraffic, hrules, hlinks, find_sortedClasses] at hfind
  refine ⟨eligibility (floorRules classes) (evidence.asOf now) now links, hentries, ?_, ?_, ?_, ?_⟩
  · intro c _
    rfl
  · intro classId
    rw [EligibilityDecision.permittedFor, hfind]
    cases classes.find? (·.id = classId) <;> rfl
  · intro c _ id hid
    obtain ⟨l, hl, hlid, -⟩ := mem_permitted.mp hid
    exact ⟨l, hl, hlid⟩
  · intro c hc l hl
    exact mem_permitted_floor hids hc hl

end Floor

/-! ## From the signed floor -/

/-- Deliveries leave the floor as it was installed. -/
theorem held_floor_run {rt : Runtime} (s : Held rt) (deliveries : List Delivery) :
    (Run.run Held.deliver s deliveries).store.floor = s.store.floor := by
  have keep (t : Held rt) (d : Delivery) (ht : t.store.floor = s.store.floor) (_ : True) :
      (t.deliver d).store.floor = s.store.floor :=
    BundleStore.accept_fixed.2.2.2.trans ht
  exact Run.run_invariant keep rfl fun _ _ => trivial

/-- Whatever the inventory with distinct ids, the classes, the site, its configuration and what
was delivered to it: a decision under the floor permits a class exactly the links that the class
and the links declare, on the evidence that is not dated ahead. -/
theorem degraded_permits {rt : Runtime} (laws : rt.Lawful) {signer : BundleSigner rt}
    {siteId : String} {links : List Link} {classes : List TrafficClass} {issued : DateTime}
    {nonce signedFloor : Bytes}
    (hsign : signFloor signer siteId links classes issued nonce = .ok signedFloor)
    (hids : (links.map (·.id)).Nodup) (hclasses : classes ≠ [])
    {trustedKey : rt.PublicKey} {expectedIssuer site : String} {floorLinks : Option (List Link)}
    {epochs : EpochStore} {readFault : Option Exc} {start : BundleStore rt}
    (hinit : BundleStore.init trustedKey expectedIssuer site signedFloor floorLinks epochs
      readFault = .ok start)
    (deliveries : List Delivery) {now : DateTime} {floor : WireBundle}
    (hcurrent : (Run.run Held.deliver ⟨start, epochs, []⟩ deliveries).store.current now =
      (floor, true))
    (env : Environment) {evidence : EvidenceSnapshot} {decision : EligibilityDecision}
    (hdecide : decideUnder rt env floor evidence now site true = .ok decision) :
    ∃ entry, PermitsDeclared links classes (evidence.asOf now) decision entry := by
  obtain ⟨installed, sequence, hinstall, -, -, rfl⟩ := BundleStore.init_ok.mp hinit
  obtain ⟨rfl, -⟩ := BundleStore.current_degraded.mp hcurrent
  rw [held_floor_run] at hdecide
  obtain ⟨built, c, hbuilt, hcut, rfl⟩ := installed_signFloor laws hsign hinstall
  rw [decideUnder_toWire] at hdecide
  exact permitsDeclared_floor ⟨built, hbuilt, .inr hcut⟩ hids hclasses hdecide

namespace Sample

/-- The sample store holds the sample floor, and decides under it a minute later. -/
theorem degraded_decides (env : Environment) (evidence : EvidenceSnapshot) :
    ∃ start floor decision,
      BundleStore.init (standIn.publicKey signer.key) "authority-1" "site-1" signedFloor none
        (.memory (.int (-1))) none = .ok start ∧
      start.current (clock 60) = (floor, true) ∧
      decideUnder standIn env floor evidence (clock 60) "site-1" true = .ok decision := by
  have hread : (EpochStore.memory (.int (-1))).read = .ok (.int (-1)) := rfl
  obtain ⟨installed, hinit⟩ := init_ok hread
  obtain ⟨_, _, hinstall, -, -, hstart⟩ := BundleStore.init_ok.mp hinit
  cases hstart
  obtain ⟨built, floor, hbuilt, hcut, rfl⟩ :=
    installed_signFloor lawful_standIn sign_signedFloor hinstall
  have hvalid : validUntil floor (clock 60) = .ok (clock 120) := by
    refine validUntil_minute ?_
    rw [(PolicyBundle.cut_fields hcut).2.2.1]
    exact decisionTtlS_floorBundle hbuilt
  obtain ⟨decision, hdecision⟩ : ∃ decision,
      decide standIn floor evidence (clock 60) "site-1" true = .ok decision := decide_returns hvalid
  exact ⟨_, floor.toWire, decision, hinit, BundleStore.current_degraded.mpr ⟨rfl, by simp⟩,
    decideUnder_toWire.trans hdecision⟩

end Sample

/-- Of two links the one that is up is permitted. -/
theorem degraded_permits_sample :
    let env := Sample.environment (.ok ()) (.error ⟨.OSError, "netlink socket closed"⟩)
    let evidence : EvidenceSnapshot := ⟨[Sample.upAt "fiber0" 0]⟩
    let bulk := TrafficClass.ofId "bulk"
    ∃ start floor decision entry,
      BundleStore.init (standIn.publicKey Sample.signer.key) "authority-1" "site-1"
        Sample.signedFloor none (.memory (.int (-1))) none = .ok start ∧
      start.current (Sample.clock 60) = (floor, true) ∧
      decideUnder standIn env floor evidence (Sample.clock 60) "site-1" true = .ok decision ∧
      PermitsDeclared [Sample.fiber0, Sample.lte0] [bulk] (evidence.asOf (Sample.clock 60)) decision
        entry ∧
      "fiber0" ∈ (entry bulk).permitted ∧ "lte0" ∉ (entry bulk).permitted := by
  intro env evidence bulk
  obtain ⟨start, floor, decision, hinit, hcurrent, hdecide⟩ :=
    Sample.degraded_decides env evidence
  obtain ⟨entry, h⟩ := degraded_permits lawful_standIn Sample.sign_signedFloor (by decide)
    (by simp) hinit [] hcurrent env hdecide
  refine ⟨start, floor, decision, entry, hinit, hcurrent, hdecide, h, ?_, ?_⟩
  · refine (h.permitted _ (by simp [bulk]) Sample.fiber0 (by simp)).mpr ?_
    exact Sample.floorAdmits_up Sample.fiber0 (by decide)
  · intro hpermitted
    obtain ⟨o, ho, -⟩ := ((h.permitted _ (by simp [bulk]) Sample.lte0 (by simp)).mp hpermitted).up
    rw [Sample.asOf_noon _ (by simp [Sample.upAt])] at ho
    simp [EvidenceSnapshot.latest, EvidenceSnapshot.candidates, Sample.upAt, Sample.lte0] at ho

end Pilotfish
