import Pilotfish.Contact
import Pilotfish.Outcomes

/-!
# What a governed run violates

The governed selector is followed through a run of the loop. Its store holds the policy it was built
for, reissued, or the floor of that policy. What the oracle finds against its choices is then one of
three things.

Results:
1. `governs_call`: a call keeps the store on its policy, and decides under the policy or the floor.
2. `found_excused`: what is found against a choice of a step is excused.
3. `run_excused`: so is every violation of a run, and none but of latency and allowance is left
   where the first class is the strictest.
-/

namespace Pilotfish
open Python

/-! ## Policies in force -/

/-- A bundle that says what the policy says, whenever it was issued. -/
structure Reissues (bundle b : PolicyBundle) : Prop where
  links : b.links = bundle.links
  classes : b.trafficClasses = bundle.trafficClasses
  rules : bundle.rules.mapM Rule.cut = .ok b.rules

/-- The floor of the policy. -/
def FloorOf (bundle b : PolicyBundle) : Prop :=
  IsFloor bundle.links (some bundle.issuedAt) "authority-1" (some bundle.trafficClasses) b

/-- A store that holds the policy or nothing, over its floor. -/
structure PolicyStore {rt : Runtime} (bundle : PolicyBundle) (s : BundleStore rt) : Prop where
  floor : ∃ b, s.floor = b.toWire ∧ FloorOf bundle b
  bundle : ∀ w, s.bundle = some w → ∃ b : PolicyBundle, w = b.toWire ∧ Reissues bundle b

/-- What decides: the policy, or in degraded mode its floor. -/
inductive DecidesBy (bundle b : PolicyBundle) : Bool → Prop
  | policy : Reissues bundle b → DecidesBy bundle b false
  | floor : FloorOf bundle b → DecidesBy bundle b true

theorem PolicyStore.current {rt : Runtime} {bundle : PolicyBundle} {s : BundleStore rt}
    (h : PolicyStore bundle s) (now : DateTime) :
    ∃ b degraded, s.current now = (b.toWire, degraded) ∧ DecidesBy bundle b degraded := by
  obtain ⟨f, hf, hfloor⟩ := h.floor
  rw [BundleStore.current, hf]
  cases hbundle : s.bundle with
  | none => exact ⟨f, true, rfl, .floor hfloor⟩
  | some w =>
    obtain ⟨b, rfl, hb⟩ := h.bundle w hbundle
    dsimp only
    split_ifs
    · exact ⟨f, true, rfl, .floor hfloor⟩
    · exact ⟨b, false, rfl, .policy hb⟩

/-- The selector governs by the policy. -/
structure Governs {rt : Runtime} (bundle : PolicyBundle) (g : Governed rt) : Prop where
  source : g.bundle = bundle
  store : PolicyStore bundle g.agent.store

section Selector
variable {rt : Runtime} (laws : rt.Lawful) {bundle : PolicyBundle}
include laws

theorem governs_reset {authorityKey siteKey : rt.PrivateKey} {siteId : String} {g : Governed rt}
    (h : Governed.reset authorityKey siteKey bundle siteId = .ok g) : Governs bundle g := by
  obtain ⟨signedFloor, hsign, h⟩ := bind_eq_ok_iff.mp h
  obtain ⟨store, hinit, h⟩ := bind_eq_ok_iff.mp h
  cases h
  obtain ⟨floor, sequence, hfloor, -, -, rfl⟩ := BundleStore.init_ok.mp hinit
  obtain ⟨built, c, hbuilt, hcut, hw⟩ := installed_signFloor laws hsign hfloor
  refine ⟨rfl, ⟨c, hw, built, hbuilt, .inr hcut⟩, ?_⟩
  intro w hw
  cases hw

omit laws in
theorem reissue_fresh {g : Governed rt} {now : DateTime} {envelopeBytes : Bytes}
    (h : g.reissue now = .ok envelopeBytes) : ∃ (fresh : PolicyBundle) (nonce : Bytes),
      nonce.length = nonceBytes ∧ fresh.links = g.bundle.links ∧
      fresh.trafficClasses = g.bundle.trafficClasses ∧ fresh.rules = g.bundle.rules ∧
      BundleSigner.publish ⟨g.authorityKey, "authority-1"⟩ fresh now nonce = .ok envelopeBytes := by
  obtain ⟨notAfter, -, h⟩ := bind_eq_ok_iff.mp h
  obtain ⟨nonce, hnonce, h⟩ := bind_eq_ok_iff.mp h
  have hlength : nonce.length = nonceBytes := by
    unfold toBytes16 at hnonce
    split_ifs at hnonce
    cases hnonce
    exact BigEndian.length_bytes 16 _
  exact ⟨{ g.bundle with sequence := (g.epoch : Int), issuedAt := now, notAfter := notAfter }, nonce,
    hlength, rfl, rfl, rfl, h⟩

/-- What the authority reissues of the policy is accepted as the policy, or refused. -/
theorem policy_accept {g : Governed rt} (hsource : g.bundle = bundle) {now : DateTime}
    {envelopeBytes : Bytes} (hreissue : g.reissue now = .ok envelopeBytes)
    {a : Agent rt memoryReceiptSink} (h : PolicyStore bundle a.store) (d : Delivery)
    (hd : d.envelopeBytes = envelopeBytes) : PolicyStore bundle (a.deliver d).store := by
  obtain ⟨fresh, nonce, hlength, hlinks, hclasses, hrules, hpublish⟩ := reissue_fresh hreissue
  show PolicyStore bundle (a.store.accept a.epochs d.faults d.envelopeBytes d.now).2.1
  cases hresult : (a.store.accept a.epochs d.faults d.envelopeBytes d.now).1 with
  | error e => rwa [BundleStore.accept_error hresult]
  | ok w =>
    obtain ⟨envelope, hadmitted, -, -, hstore⟩ := BundleStore.accept_ok hresult
    rw [hstore]
    refine ⟨h.floor, ?_⟩
    intro w' hw'
    obtain rfl : w = w' := Option.some.inj hw'
    obtain ⟨c, hcut, rfl⟩ := (decodeBundle_publish laws hlength hpublish
      (hd ▸ hadmitted.decoded)).mp hadmitted.payload
    obtain ⟨-, -, -, hclinks, hcclasses⟩ := PolicyBundle.cut_fields hcut
    obtain ⟨-, -, hcrules, -⟩ := PolicyBundle.cut_eq_ok_iff.mp hcut
    refine ⟨c, rfl, ?_, ?_, ?_⟩
    · rw [hclinks, hlinks, hsource]
    · rw [hcclasses, hclasses, hsource]
    · rw [← hsource, ← hrules, hcrules]

/-- A selector that governs by the policy goes on to. -/
def KeepsPolicy (bundle : PolicyBundle) (g g' : Governed rt) : Prop :=
  Governs bundle g → Governs bundle g'

omit laws in
theorem KeepsPolicy.trans {a b c : Governed rt} (hab : KeepsPolicy bundle a b)
    (hbc : KeepsPolicy bundle b c) : KeepsPolicy bundle a c := fun h => hbc (hab h)

theorem policy_contact (ctx : SelectorContext) : Effect.Within (KeepsPolicy bundle)
    (Governed.contact ctx : Effect Exc (Governed rt) Unit) := by
  intro g h
  unfold Governed.contact
  split_ifs
  · let g' : Governed rt := { g with epoch := g.epoch + 1 }
    cases hreissue : g'.reissue ctx.now with
    | error e =>
      have hpublish : Governed.publish ctx.now g = (.error e, g') := Prod.ext hreissue rfl
      rw [Effect.bind_of_error hpublish]
      exact ⟨h.source, h.store⟩
    | ok envelopeBytes =>
      have hpublish : Governed.publish ctx.now g = (.ok envelopeBytes, g') :=
        Prod.ext hreissue rfl
      have haccept :=
        policy_accept laws (g := g') h.source hreissue h.store ⟨envelopeBytes, ctx.now, {}⟩ rfl
      rw [Effect.bind_of_ok hpublish, Effect.snd_bind_pure]
      exact ⟨h.source, haccept⟩
  · exact h

variable (undeclared : Undeclared) (ctx : SelectorContext)

omit laws in
theorem policy_turn : Effect.Within (KeepsPolicy bundle)
    (Governed.turn undeclared ctx : Effect Exc (Governed rt) _) := by
  intro g h
  have hsame : SameStore g.agent
      (runOnce (Governed.environment undeclared ctx) g.siteId ctx.now g.agent).2 :=
    runOnce_sameStore ⟨rfl, fun _ => rfl, fun _ => rfl⟩ g.agent
  refine ⟨h.source, ?_⟩
  show PolicyStore bundle
    (runOnce (Governed.environment undeclared ctx) g.siteId ctx.now g.agent).2.store
  rw [hsame]
  exact h.store

/-- A call decides under the policy or its floor, and leaves the selector on its policy. -/
theorem governs_call {g g' : Governed rt} (h : Governs bundle g) {choices : Choices}
    (hcall : Governed.call undeclared ctx g = (.ok choices, g')) : Governs bundle g' ∧
    ∃ b degraded siteId d, DecidesBy bundle b degraded ∧
      (Governed.decision undeclared ctx g).1 = .ok d ∧
      decide rt b ctx.evidence ctx.now siteId degraded = .ok d ∧
      choices = ctx.classes.map fun c => (c.1, choose ctx.evidence d c.1) := by
  have hcontact := policy_contact laws ctx g h
  obtain ⟨b, degraded, hcurrent, hby⟩ := hcontact.store.current ctx.now
  obtain ⟨d, siteId, hdecision, hdecide, hchoices⟩ := Governed.call_ok hcall hcurrent
  refine ⟨?_, b, degraded, siteId, d, hby, hdecision, hdecide, hchoices⟩
  have hwithin : Effect.Within (KeepsPolicy bundle)
      (Governed.call undeclared ctx : Effect Exc (Governed rt) _) := by
    unfold Governed.call Governed.decision
    exact .bind .trans (.bind .trans (policy_contact laws ctx) fun _ => policy_turn undeclared ctx)
      fun _ => .bind .trans (fun _ h => ⟨h.source, h.store⟩) fun _ _ h => h
  have hkept := hwithin g h
  rwa [hcall] at hkept

omit laws in
/-- A selector says of itself what its decision says. -/
theorem call_degraded {g g' : Governed rt} {choices : Choices}
    (hcall : Governed.call undeclared ctx g = (.ok choices, g')) {d : EligibilityDecision}
    (hdecision : (Governed.decision undeclared ctx g).1 = .ok d) :
    g'.lastDegraded = d.degraded := by
  obtain ⟨d', g₁, hdecision', hrest⟩ := Effect.bind_eq_ok_iff.mp hcall
  cases hrest
  rw [hdecision'] at hdecision
  obtain rfl := Except.ok.inj hdecision
  rfl

end Selector

/-! ## What a policy and its floor admit -/

section Admitted
variable {rd : ℚ → Double} {ρ : Type} {generator : Random ρ} {rng rng' : ρ}
  {bundle b : PolicyBundle} {fleet : LinkFleet} {degraded : Bool} {evidence : EvidenceSnapshot}
  {now : DateTime} {tclass : TrafficClass} {link : Link}

/-- The bundle has a rule for every allowance and for every demand that its classes make, of a
latency apart, and the fleet is of the links it names. -/
structure Covers (bundle : PolicyBundle) (fleet : LinkFleet) : Prop where
  keyed : fleet.Keyed
  linkIds : (bundle.links.map (·.id)).Nodup
  classIds : (bundle.trafficClasses.map (·.id)).Nodup
  types : ∀ link ∈ bundle.links, ∀ m, fleet.models.get? link.id = some m →
    ∀ type, m.type? = some type → link.type = type
  metered : ∀ c ∈ bundle.trafficClasses, c.allowMetered = false →
    ∃ ruleId, .metered ruleId c.id ∈ bundle.rules
  jurisdiction : ∀ c ∈ bundle.trafficClasses, c.allowedJurisdictions.isSome = true →
    ∃ ruleId, .jurisdiction ruleId c.id ∈ bundle.rules
  encryption : ∀ c ∈ bundle.trafficClasses, c.requiresEncryption = true →
    ∃ ruleId, .encryption ruleId c.id ∈ bundle.rules
  quota : ∀ type, type = "lte" ∨ type = "satellite" → ∃ ruleId threshold,
    .quota ruleId type threshold ∈ bundle.rules ∧ threshold.toRat ≤ 100

/-- A rule that is no directive is reissued as it is. -/
theorem mem_reissued {rules cs : List Rule} (h : rules.mapM Rule.cut = .ok cs) {rule : Rule}
    (hrule : rule ∈ rules) (hcut : rule.cut = .ok rule) : rule ∈ cs := by
  have hpairs := mapM_eq_ok_iff.mp h
  clear h
  induction hpairs with
  | nil => cases hrule
  | cons hfirst _ ih =>
    rcases List.mem_cons.mp hrule with rfl | hrest
    · obtain rfl := Except.ok.inj (hcut.symm.trans hfirst)
      exact List.mem_cons_self
    · exact List.mem_cons_of_mem _ (ih hrest)

theorem Reissues.covers (h : Reissues bundle b) (hcovers : Covers bundle fleet) :
    Covers b fleet where
  keyed := hcovers.keyed
  linkIds := h.links ▸ hcovers.linkIds
  classIds := h.classes ▸ hcovers.classIds
  types := h.links ▸ hcovers.types
  metered := by
    intro c hc hforbids
    obtain ⟨ruleId, hrule⟩ := hcovers.metered c (h.classes ▸ hc) hforbids
    exact ⟨ruleId, mem_reissued h.rules hrule rfl⟩
  jurisdiction := by
    intro c hc hlimits
    obtain ⟨ruleId, hrule⟩ := hcovers.jurisdiction c (h.classes ▸ hc) hlimits
    exact ⟨ruleId, mem_reissued h.rules hrule rfl⟩
  encryption := by
    intro c hc hrequires
    obtain ⟨ruleId, hrule⟩ := hcovers.encryption c (h.classes ▸ hc) hrequires
    exact ⟨ruleId, mem_reissued h.rules hrule rfl⟩
  quota := by
    intro type htype
    obtain ⟨ruleId, threshold, hrule, hthreshold⟩ := hcovers.quota type htype
    exact ⟨ruleId, threshold, mem_reissued h.rules hrule rfl, hthreshold⟩

theorem covers_of_identities {fleet' : LinkFleet} (h : fleet'.identities = fleet.identities)
    (hcovers : Covers bundle fleet) : Covers bundle fleet' where
  __ := hcovers
  keyed := keyed_of_identities h hcovers.keyed
  types := by
    intro link hlink m hm type htype
    have hget : fleet'.identities.get? link.id = some m.identity := by
      rw [LinkFleet.identities, Dict.get?_map, hm]
      rfl
    rw [h, LinkFleet.identities, Dict.get?_map] at hget
    obtain ⟨m', hm', hsame⟩ := Option.map_eq_some_iff.mp hget
    exact hcovers.types link hlink m' hm' type ((congrArg Prod.snd hsame).trans htype)

theorem Covers.not_forbidden (hcovers : Covers bundle fleet)
    (hclass : tclass ∈ bundle.trafficClasses)
    (hadmits : admits bundle.rules evidence now tclass link = true) {requirement : String} :
    ¬Forbidden tclass link requirement := by
  have hrules := admits_iff.mp hadmits
  intro hforbidden
  cases hforbidden with
  | metered hallowed hmetered =>
    obtain ⟨ruleId, hrule⟩ := hcovers.metered tclass hclass hallowed
    have hpermits := Rule.evaluate_metered.mp (hrules _ hrule) hmetered
    rw [hallowed] at hpermits
    cases hpermits
  | jurisdiction hallowed houtside =>
    obtain ⟨ruleId, hrule⟩ :=
      hcovers.jurisdiction tclass hclass (Option.isSome_of_eq_some hallowed)
    obtain ⟨hdeclared, hinside⟩ := Rule.evaluate_jurisdiction.mp (hrules _ hrule) _ hallowed
    rcases houtside with ⟨j, hj, hout⟩ | hnone
    · exact hout (hinside j hj)
    · exact hdeclared hnone
  | encryption hrequired hplain =>
    obtain ⟨ruleId, hrule⟩ := hcovers.encryption tclass hclass hrequired
    have hencrypted := Rule.evaluate_encryption.mp (hrules _ hrule) hrequired
    rw [hplain] at hencrypted
    cases hencrypted

/-- What the quota rules see to does not depend on the classes. -/
theorem Covers.not_spent (hcovers : Covers bundle fleet)
    (hreported : fleet.step rd generator now rng = .ok (evidence.observations, rng'))
    (hlink : link ∈ bundle.links)
    (hadmits : admits bundle.rules (evidence.asOf now) now tclass link = true) :
    fleet.spent rd link.id = .ok false := by
  have hguarded : Guarded { bundle with trafficClasses := [] } fleet := {
    keyed := hcovers.keyed
    linkIds := hcovers.linkIds
    classIds := List.nodup_nil
    types := hcovers.types
    metered := by rintro c ⟨⟩
    jurisdiction := by rintro c ⟨⟩
    encryption := by rintro c ⟨⟩
    quota := hcovers.quota }
  exact Pilotfish.not_spent hguarded hreported hlink hadmits

/-- What the floor admits to a class forbids nothing that the class forbids. -/
theorem not_forbidden_floor (h : FloorAdmits evidence tclass link) {requirement : String} :
    ¬Forbidden tclass link requirement := by
  intro hforbidden
  cases hforbidden with
  | metered hallowed hmetered =>
    have := h.metered hmetered
    rw [hallowed] at this
    cases this
  | jurisdiction hallowed houtside =>
    obtain ⟨hdeclared, hinside⟩ := h.jurisdictions _ hallowed
    rcases houtside with ⟨j, hj, hout⟩ | hnone
    · exact hout (hinside j hj)
    · exact hdeclared hnone
  | encryption hrequired hplain =>
    have := h.encryption hrequired
    rw [hplain] at this
    cases this

/-- The policy times the class. -/
def Times (bundle : PolicyBundle) (classId : String) : Prop :=
  ∃ ruleId, .maxRtt ruleId classId ∈ bundle.rules

/-- What decides has the links and the classes of the policy, and admits to a class no link the
class forbids, nor one that was measured too slow where the policy times the class. -/
structure Screens (bundle b : PolicyBundle) (evidence : EvidenceSnapshot) (now : DateTime) :
    Prop where
  links : b.links = bundle.links
  classes : bundle.trafficClasses ≠ [] → b.trafficClasses = bundle.trafficClasses
  forbids : ∀ c ∈ b.trafficClasses, ∀ link, admits b.rules evidence now c link = true →
    ∀ requirement, ¬Forbidden c link requirement
  times : ∀ c ∈ b.trafficClasses, Times bundle c.id → ∀ link,
    admits b.rules evidence now c link = true → ∀ bound, c.maxRttMs = some bound →
      ∃ o, evidence.latest link.id "rtt_ms" = some o ∧ o.value.toRat ≤ bound.toRat

theorem screens_of_decides (hcovers : Covers bundle fleet) (h : DecidesBy bundle b degraded)
    (evidence : EvidenceSnapshot) (now : DateTime) : Screens bundle b evidence now := by
  cases h with
  | policy h =>
    refine ⟨h.links, fun _ => h.classes, ?_, ?_⟩
    · intro c hc link hadmits requirement
      exact (h.covers hcovers).not_forbidden hc hadmits
    · rintro c - ⟨ruleId, hrule⟩ link hadmits bound hbound
      exact Rule.evaluate_maxRtt.mp (admits_iff.mp hadmits _ (mem_reissued h.rules hrule rfl))
        bound hbound
  | floor h =>
    obtain ⟨hlinks, hclasses, hrules⟩ := h.fields
    refine ⟨hlinks, ?_, ?_, ?_⟩
    · intro hsome
      rw [hclasses]
      cases hcases : bundle.trafficClasses with
      | nil => exact absurd hcases hsome
      | cons c cs => rfl
    · intro c hc link hadmits requirement
      rw [hrules] at hadmits
      exact not_forbidden_floor ((admits_floorRules (hclasses ▸ hc)).mp hadmits)
    · intro c hc _ link hadmits
      rw [hrules] at hadmits
      exact ((admits_floorRules (hclasses ▸ hc)).mp hadmits).rtt

end Admitted

/-! ## Excuses -/

/-- Where the policy times the class, the link had been measured within its bound. -/
def Measured (bundle : PolicyBundle) (ctx : SelectorContext) (c : TrafficClass) (linkId : String) :
    Prop :=
  Times bundle c.id → ∀ bound, c.maxRttMs = some bound →
    ∃ o, (ctx.evidence.asOf ctx.now).latest linkId "rtt_ms" = some o ∧ o.value.toRat ≤ bound.toRat

/-- The link was slower than the bound of the class. -/
def Late (rd : ℚ → Double) (fleet : LinkFleet) (c : TrafficClass) (v : Violation) : Prop :=
  v.requirement = latencyMissed ∧ missesLatency c ((fleet.trueRtt rd).lookup v.linkId) = .ok true

/-- Why a governed run may carry a violation. -/
inductive Excused (rd : ℚ → Double) (bundle : PolicyBundle) (fleet : LinkFleet)
    (ctx : SelectorContext) (d : EligibilityDecision) (v : Violation) : Prop
  /-- The link was late. It is permitted to the class, and had been measured in time. -/
  | latency {c : TrafficClass} (asked : c ∈ bundle.trafficClasses) (classId : c.id = v.classId)
      (late : Late rd fleet c v) (permitted : v.linkId ∈ d.permittedFor v.classId)
      (measured : Measured bundle ctx c v.linkId)
  /-- The allowance was used up, which the floor does not ask after. -/
  | allowance (carried : v.requirement = spentAllowance)
      (spent : fleet.spent rd v.linkId = .ok true) (degraded : d.degraded = true)
  /-- The class was permitted nothing and was lent a link of the first class, which that may use. -/
  | lent {first c : TrafficClass} {link : Link} (refused : d.permittedFor v.classId = [])
      (head : (sortedClasses bundle.trafficClasses).head? = some first)
      (asked : c ∈ bundle.trafficClasses) (classId : c.id = v.classId)
      (used : link ∈ bundle.links) (linkId : link.id = v.linkId)
      (permitted : v.linkId ∈ d.permittedFor first.id) (fits : ∀ r, ¬Forbidden first link r)
      (measured : Measured bundle ctx first v.linkId)
      (violated : Forbidden c link v.requirement ∨ Late rd fleet c v)

/-- A link that some class of the policy forbids, its first class forbids as well. -/
def FirstStrictest (bundle : PolicyBundle) : Prop :=
  ∀ first, (sortedClasses bundle.trafficClasses).head? = some first →
    ∀ c ∈ bundle.trafficClasses, ∀ link ∈ bundle.links, ∀ requirement,
      Forbidden c link requirement → ∃ requirement', Forbidden first link requirement'

section Judged
variable {rt : Runtime} {rd : ℚ → Double} {ρ : Type} {generator : Random ρ} {rng rng' : ρ}
  {scenario : Scenario} {b : PolicyBundle} {fleet : LinkFleet} {ctx : SelectorContext}
  {siteId : String} {degraded : Bool} {d : EligibilityDecision} {atS : Int}
  {classId linkId : String}

/-- A choice is admitted to its own class, or to the first class for a class that is refused all. -/
theorem choose_admits (hdecide : decide rt b ctx.evidence ctx.now siteId degraded = .ok d)
    (hchoose : choose ctx.evidence d classId = some linkId) :
    ∃ c ∈ b.trafficClasses, ∃ link ∈ b.links, link.id = linkId ∧
      admits b.rules (ctx.evidence.asOf ctx.now) ctx.now c link = true ∧
      linkId ∈ d.permittedFor c.id ∧ (c.id = classId ∨
        d.permittedFor classId = [] ∧ (sortedClasses b.trafficClasses).head? = some c) := by
  unfold choose at hchoose
  dsimp only at hchoose
  split at hchoose
  · next first rest hrefused hclasses =>
    obtain ⟨hmem, -⟩ := bestByRtt_mem hchoose
    have hfirst : d.permittedFor first.classId = first.permitted := by
      rw [EligibilityDecision.permittedFor, hclasses, List.find?_cons_of_pos (by simp)]
    rw [(decide_ok hdecide).2.2.2.2.2.2] at hclasses
    obtain ⟨c, cs, hsorted, rfl, -⟩ := List.map_eq_cons_iff.mp hclasses
    have hc : c ∈ b.trafficClasses := mem_sortedClasses.mp (hsorted ▸ List.mem_cons_self)
    obtain ⟨link, hlink, hid, hadmits⟩ := mem_permitted.mp hmem
    have hpermitted : linkId ∈ d.permittedFor c.id := hfirst.symm ▸ hmem
    exact ⟨c, hc, link, hlink, hid, hadmits, hpermitted, .inr ⟨hrefused, by rw [hsorted]; rfl⟩⟩
  · obtain ⟨hmem, -⟩ := bestByRtt_mem hchoose
    obtain ⟨c, hc, hid, link, hlink, hlinkId, hadmits⟩ := permitted_admits hdecide hmem
    exact ⟨c, hc, link, hlink, hlinkId, hadmits, hid.symm ▸ hmem, .inl hid⟩

theorem mem_of_classes_get? (hids : (scenario.bundle.trafficClasses.map (·.id)).Nodup)
    {tclass : TrafficClass} (h : scenario.classes.get? classId = some tclass) :
    tclass ∈ scenario.bundle.trafficClasses ∧ tclass.id = classId := by
  have hitem := Dict.get?_eq_some.mp h
  rw [Scenario.classes, Dict.ofEntries_items (by rwa [List.map_map])] at hitem
  obtain ⟨c, hc, hpair⟩ := List.mem_map.mp hitem
  cases hpair
  exact ⟨hc, rfl⟩

/-- What the oracle finds against a choice is excused. -/
theorem found_excused (hcovers : Covers scenario.bundle fleet)
    (hreported : fleet.step rd generator ctx.now rng = .ok (ctx.evidence.observations, rng'))
    (hby : DecidesBy scenario.bundle b degraded)
    (hdecide : decide rt b ctx.evidence ctx.now siteId degraded = .ok d)
    (hchoose : choose ctx.evidence d classId = some linkId) {found : List Violation}
    (hfound : checkChoice rd atS scenario.links scenario.classes fleet (fleet.trueRtt rd) classId
      linkId = .ok found) {v : Violation} (hv : v ∈ found) :
    v.atS = atS ∧ Excused rd scenario.bundle fleet ctx d v := by
  obtain ⟨link, tclass, missed, spent, hlink, htclass, hmissed, hspent, rfl⟩ :=
    checkChoice_ok.mp hfound
  obtain ⟨requirement, hrequirement, rfl⟩ := List.mem_map.mp hv
  refine ⟨rfl, ?_⟩
  obtain ⟨hasked, hid⟩ := mem_of_classes_get? hcovers.classIds htclass
  have hscreens := screens_of_decides hcovers hby (ctx.evidence.asOf ctx.now) ctx.now
  obtain ⟨c, hc, link', hlink', rfl, hadmits, hpermitted, hwhose⟩ := choose_admits hdecide hchoose
  have hclasses := hscreens.classes (List.ne_nil_of_mem hasked)
  have hforbids := hscreens.forbids c hc link' hadmits
  have hmeasured : Measured scenario.bundle ctx c link'.id := fun htimed =>
    hscreens.times c hc htimed link' hadmits
  rw [hscreens.links] at hlink'
  rw [hclasses] at hc hwhose
  obtain rfl := Option.some.inj (hlink.symm.trans (links_get? hcovers.linkIds hlink'))
  rcases mem_requirements.mp hrequirement with hforbidden | ⟨rfl, rfl⟩ | ⟨rfl, rfl⟩
  · rcases hwhose with rfl | ⟨hrefused, hhead⟩
    · obtain rfl := Option.some.inj (htclass.symm.trans (classes_get? hcovers.classIds hc))
      exact absurd hforbidden (hforbids _)
    · exact .lent hrefused hhead hasked hid hlink' rfl hpermitted hforbids hmeasured
        (.inl hforbidden)
  · rcases hwhose with rfl | ⟨hrefused, hhead⟩
    · obtain rfl := Option.some.inj (htclass.symm.trans (classes_get? hcovers.classIds hc))
      exact .latency hasked hid ⟨rfl, hmissed⟩ hpermitted hmeasured
    · exact .lent hrefused hhead hasked hid hlink' rfl hpermitted hforbids hmeasured
        (.inr ⟨rfl, hmissed⟩)
  · refine .allowance rfl hspent ?_
    rw [(decide_ok hdecide).2.2.2.2.2.1]
    cases hby with
    | floor _ => rfl
    | policy h =>
      have hunspent := (h.covers hcovers).not_spent hreported (h.links ▸ hlink') hadmits
      cases hspent.symm.trans hunspent

theorem latency_or_allowance (hstrictest : FirstStrictest scenario.bundle) {v : Violation}
    (h : Excused rd scenario.bundle fleet ctx d v) :
    v.requirement = latencyMissed ∨ v.requirement = spentAllowance := by
  cases h with
  | latency _ _ late _ _ => exact .inl late.1
  | allowance carried _ _ => exact .inr carried
  | lent _ head asked _ used _ _ fits _ violated =>
    rcases violated with forbidden | late
    · obtain ⟨requirement, hfirst⟩ := hstrictest _ head _ asked _ used _ forbidden
      exact absurd hfirst (fits requirement)
    · exact .inl late.1

end Judged

/-! ## Runs -/

section Runs
variable {rt : Runtime} (laws : rt.Lawful) {rd : ℚ → Double} {ρ : Type} {generator : Random ρ}
  {scenario : Scenario} {authorityKey siteKey : rt.PrivateKey} {siteId : String}
  {undeclared : Undeclared}
include laws

/-- What a step finds is excused by what it decided. -/
theorem step_excused (hcovers : Covers scenario.bundle scenario.fleet) {step : Nat}
    {before after : Loop ρ (Governed rt)} (hgoverns : Governs scenario.bundle before.selector)
    (hsame : before.world.scene.fleet.identities = scenario.fleet.identities)
    (h : before.step rd generator scenario
      (governed authorityKey siteKey scenario.bundle siteId undeclared) step = .ok after) :
    Governs scenario.bundle after.selector ∧
    ∃ ctx world d, before.world.look rd generator scenario step = .ok (ctx, world) ∧
      (Governed.decision undeclared ctx before.selector).1 = .ok d ∧
      ∀ v ∈ after.result.violations, v ∈ before.result.violations ∨
        v.atS = scenario.atS step ∧ Excused rd scenario.bundle world.scene.fleet ctx d v := by
  obtain ⟨ctx, world, choices, state, found, fleet, result, hlook, hcall, hfound, hcarry, rfl⟩ :=
    step_eq_ok h
  obtain ⟨hkept, b, degraded, site, d, hby, hdecision, hdecide, hchoices⟩ :=
    governs_call laws undeclared ctx hgoverns hcall
  have hviolations : result.violations = before.result.violations ++ found := by
    rw [(carryAll_tallies hcarry).2]
  refine ⟨hkept, ctx, world, d, hlook, hdecision, ?_⟩
  intro v hv
  dsimp only at hv
  rw [hviolations] at hv
  refine (List.mem_append.mp hv).imp_right ?_
  intro hnew
  obtain ⟨classId, linkId, one, hchoice, hone, hin⟩ := mem_checkViolations hfound hnew
  rw [hchoices] at hchoice
  obtain ⟨c, -, hpair⟩ := List.mem_map.mp hchoice
  have hchoose : choose ctx.evidence d classId = some linkId := by
    rw [← (Prod.mk.inj hpair).1, (Prod.mk.inj hpair).2]
  exact found_excused (covers_of_identities ((look_identities hlook).trans hsame) hcovers)
    (look_ok hlook).2.1 hby hdecide hchoose hone hin

/-- The step of a run that excuses what is found in it. -/
def ExcusedIn (rd : ℚ → Double) (generator : Random ρ) (scenario : Scenario)
    (undeclared : Undeclared)
    (reached : Nat → Except Exc (Loop ρ (Governed rt))) (n : Nat) (v : Violation) : Prop :=
  ∃ k < n, ∃ before ctx world d, reached k = .ok before ∧
    before.world.look rd generator scenario k = .ok (ctx, world) ∧
    (Governed.decision undeclared ctx before.selector).1 = .ok d ∧ v.atS = scenario.atS k ∧
    Excused rd scenario.bundle world.scene.fleet ctx d v

theorem after_excused (hcovers : Covers scenario.bundle scenario.fleet) {start : Governed rt}
    (hstart : Governed.reset authorityKey siteKey scenario.bundle siteId = .ok start) {seed : Int}
    {n : Nat} {loop : Loop ρ (Governed rt)} (h : Loop.after rd generator scenario
      (governed authorityKey siteKey scenario.bundle siteId undeclared)
      (.start generator scenario seed start) n = .ok loop) :
    Governs scenario.bundle loop.selector ∧ ∀ v ∈ loop.result.violations,
      ExcusedIn rd generator scenario undeclared (Loop.after rd generator scenario
        (governed authorityKey siteKey scenario.bundle siteId undeclared)
        (.start generator scenario seed start)) n v := by
  induction n generalizing loop with
  | zero =>
    cases h
    refine ⟨governs_reset laws hstart, ?_⟩
    intro v hv
    cases hv
  | succ n ih =>
    obtain ⟨before, hbefore, hstep⟩ := bind_eq_ok_iff.mp h
    obtain ⟨hgoverns, hearlier⟩ := ih hbefore
    obtain ⟨hkept, ctx, world, d, hlook, hdecision, hfound⟩ :=
      step_excused laws hcovers hgoverns (after_identities hbefore) hstep
    refine ⟨hkept, ?_⟩
    intro v hv
    rcases hfound v hv with hold | ⟨hat, hexcused⟩
    · obtain ⟨k, hk, hwhen⟩ := hearlier v hold
      exact ⟨k, Nat.lt_succ_of_lt hk, hwhen⟩
    · exact ⟨n, Nat.lt_succ_self n, before, ctx, world, d, hbefore, hlook, hdecision, hat, hexcused⟩

/-- Every violation of a governed run is excused by what was decided in its step. Where the first
class is the strictest, only latency and the allowance are ever violated. -/
theorem run_excused (hcovers : Covers scenario.bundle scenario.fleet) {s : Governed rt}
    {seed : Int} {result : RunResult} (h : run rd generator scenario
      (governed authorityKey siteKey scenario.bundle siteId undeclared) s seed = .ok result) :
    ∃ start, Governed.reset authorityKey siteKey scenario.bundle siteId = .ok start ∧
      ∀ v ∈ result.violations,
        ExcusedIn rd generator scenario undeclared (Loop.after rd generator scenario
          (governed authorityKey siteKey scenario.bundle siteId undeclared)
          (.start generator scenario seed start)) result.steps v ∧
        (FirstStrictest scenario.bundle →
          v.requirement = latencyMissed ∨ v.requirement = spentAllowance) := by
  obtain ⟨start, steps, loop, hstart, -, hloop, rfl⟩ := after_of_run h
  refine ⟨start, hstart, ?_⟩
  intro v hv
  have hexcused := (after_excused laws hcovers hstart hloop).2 v hv
  rw [(after_framed hloop).steps]
  refine ⟨hexcused, ?_⟩
  intro hstrictest
  obtain ⟨k, -, before, ctx, world, d, -, -, -, -, hv⟩ := hexcused
  exact latency_or_allowance hstrictest hv

end Runs

namespace Sample

/-- A site that never hears from its authority, with a class that its only link must not carry. -/
def lending : Scenario :=
  { scenario [⟨0, .authorityUnreachable, ""⟩] with
    bundle := { siteBundle [TrafficClass.ofId "bulk", voice] with
      rules := [.encryption "R-ENCRYPTION" "voice",
        .quota "R-LTE" "lte" (.ofRat 100),
        .quota "R-SATELLITE" "satellite" (.ofRat 90)] }
    durationS := 30 }

theorem covers_lending : Covers lending.bundle lending.fleet where
  keyed := guarded_bundle.keyed
  linkIds := by decide
  classIds := by decide
  types link hlink m hm type htype := by
    obtain rfl := List.mem_singleton.mp hlink
    obtain rfl := Option.some.inj hm
    exact Option.some.inj htype
  metered c hc := by
    rcases List.mem_pair.mp hc with rfl | rfl <;> rintro ⟨⟩
  jurisdiction c hc := by
    rcases List.mem_pair.mp hc with rfl | rfl <;> rintro ⟨⟩
  encryption c hc := by
    rcases List.mem_pair.mp hc with rfl | rfl
    · rintro ⟨⟩
    · exact fun _ => ⟨"R-ENCRYPTION", .head _⟩
  quota type htype := by
    rcases htype with rfl | rfl
    · exact ⟨_, _, .tail _ (.head _), by norm_num⟩
    · exact ⟨_, _, .tail _ (.tail _ (.head _)), by norm_num⟩

theorem reissuable_lending : Reissuable lending.bundle 21600 where
  issuer := rfl
  classIds := by decide
  directives := ⟨_, rfl⟩
  whole := by decide
  positive := by decide

/-- What the floor of the site decides. -/
def lent (evidence : EvidenceSnapshot) : EligibilityDecision where
  siteId := "site-1"
  decidedAt := clock 0
  validUntil := clock 60
  bundleHash := ""
  evidenceHash := ""
  degraded := true
  classes := (sortedClasses lending.bundle.trafficClasses).map
    (eligibility (floorRules lending.bundle.trafficClasses) (evidence.asOf (clock 0)) (clock 0)
      lending.bundle.links)

def lentChoices : Choices := [("bulk", some "fiber0"), ("voice", some "fiber0")]

def lentViolation : Violation := ⟨0, "voice", "fiber0", unencryptedPath⟩

/-- The first step of the run, once the choices are known. -/
theorem lending_look : ∃ ctx world carried,
    (World.mk (draws.seeded 0) ⟨lending.fleet, true, []⟩).look Double.nearest draws lending 0 =
      .ok (ctx, world) ∧
    ctx.authorityReachable = false ∧ ctx.now = clock 0 ∧
    ctx.classes.map (fun c => (c.1, choose ctx.evidence (lent ctx.evidence) c.1)) = lentChoices ∧
    checkViolations Double.nearest (lending.atS 0) lending.links lending.classes world.scene.fleet
      (world.scene.fleet.trueRtt Double.nearest) lentChoices = .ok [lentViolation] ∧
    carryAll Double.nearest lending lentChoices world.scene.fleet { violations := [lentViolation] } =
      .ok carried := by
  let seen := (World.mk (draws.seeded 0) ⟨lending.fleet, true, []⟩).look Double.nearest draws lending 0
  obtain ⟨⟨ctx, world⟩, hlook⟩ := isOk_iff.mp (show seen.isOk = true by decide +kernel)
  have hseen : seen.toOption.all (fun (ctx, world) =>
      ctx.authorityReachable = false ∧ ctx.now = clock 0 ∧
      ctx.classes.map (fun c => (c.1, choose ctx.evidence (lent ctx.evidence) c.1)) = lentChoices ∧
      (checkViolations Double.nearest (lending.atS 0) lending.links lending.classes
        world.scene.fleet (world.scene.fleet.trueRtt Double.nearest) lentChoices).toOption =
          some [lentViolation] ∧
      (carryAll Double.nearest lending lentChoices world.scene.fleet
        { violations := [lentViolation] }).isOk = true) = true := by decide +kernel
  rw [hlook] at hseen
  obtain ⟨hunreachable, hnow, hchoices, hfound, hcarried⟩ := of_decide_eq_true hseen
  obtain ⟨carried, hcarry⟩ := isOk_iff.mp hcarried
  refine ⟨ctx, world, carried, hlook, hunreachable, hnow, hchoices, ?_, hcarry⟩
  revert hfound
  cases checkViolations Double.nearest (lending.atS 0) lending.links lending.classes
    world.scene.fleet (world.scene.fleet.trueRtt Double.nearest) lentChoices with
  | error e => exact fun hfound => nomatch hfound
  | ok found => exact fun hfound => congrArg Except.ok (Option.some.inj hfound)

/-- What is decided under a bundle of undeclared types, which no store here holds. -/
def undeclared : Undeclared := fun _ _ _ => .error ⟨.TypeError, ""⟩

/-- The selector of the run makes the choices. -/
theorem lending_call {ctx : SelectorContext} {start : Governed standIn}
    (hreset : Governed.reset signer.key siteKey lending.bundle "site-1" = .ok start)
    (hunreachable : ctx.authorityReachable = false) (hnow : ctx.now = clock 0)
    (hchoices : ctx.classes.map (fun c => (c.1, choose ctx.evidence (lent ctx.evidence) c.1)) =
      lentChoices) :
    ∃ g', Governed.call undeclared ctx start = (.ok lentChoices, g') := by
  obtain ⟨floor, httl, hclasses, hinit⟩ :=
    inStep_reset lawful_standIn reissuable_lending.whole hreset
  have hafter : contactAfter none ctx = none := by rw [contactAfter, hunreachable]; rfl
  have hcalendar : InCalendar lending.bundle 21600 none ctx := {
    publication := by
      intro hreachable
      rw [hunreachable] at hreachable
      cases hreachable
    decision := by
      rintro ⟨t, ht, -⟩
      rw [hafter] at ht
      cases ht
    degraded := by
      rw [hnow]
      exact fun _ => ⟨clock 60, DateTime.ofUs_eq_ok.mpr rfl⟩ }
  have hwhole : ∃ n, ctx.now.us = n * 1000000 := hnow ▸ ⟨1787918400, rfl⟩
  obtain ⟨choices, g', -, hcall, -, -⟩ := call_returns lawful_standIn ctx undeclared
    reissuable_lending httl hclasses hinit hwhole hcalendar
    (by rw [List.countP_singleton, hunreachable]; decide)
  obtain ⟨b, hb, hfloor⟩ := (governs_reset lawful_standIn hreset).store.floor
  have hnone : start.agent.store.bundle = none := hinit.governs
  have hcontact : (Governed.contact ctx start).2 = start := by
    unfold Governed.contact
    rw [hunreachable]
    rfl
  have hcurrent : (Governed.contact ctx start).2.agent.store.current ctx.now =
      (b.toWire, true) := by
    rw [hcontact]
    refine BundleStore.current_degraded.mpr ⟨hb.symm, ?_⟩
    intro w hw
    rw [hnone] at hw
    cases hw
  obtain ⟨d, site, -, hdecide, rfl⟩ := Governed.call_ok hcall hcurrent
  obtain ⟨hlinks, hdeclared, hrules⟩ := hfloor.fields
  have hsame : d.classes = (lent ctx.evidence).classes := by
    rw [(decide_ok hdecide).2.2.2.2.2.2, hlinks, hdeclared, hrules, hnow]
    rfl
  have hchoose : ∀ classId, choose ctx.evidence d classId =
      choose ctx.evidence (lent ctx.evidence) classId := by
    intro classId
    simp only [choose, EligibilityDecision.permittedFor, hsame]
  refine ⟨g', ?_⟩
  rw [hcall, ← hchoices]
  simp only [hchoose]

/-- The run lends the unencrypted link to the class that requires encryption. -/
theorem lending_run : ∃ start result,
    run Double.nearest draws lending
      (governed signer.key siteKey lending.bundle "site-1" undeclared) start 0 = .ok result ∧
    result.violations = [lentViolation] := by
  obtain ⟨start, hreset⟩ : ∃ start, Governed.reset signer.key siteKey lending.bundle "site-1" =
      .ok start := reset_returns rfl
  obtain ⟨ctx, world, ⟨fleet, result⟩, hlook, hunreachable, hnow, hchoices, hfound, hcarry⟩ :=
    lending_look
  obtain ⟨g', hcall⟩ := lending_call hreset hunreachable hnow hchoices
  obtain ⟨after, hstep, hviolations⟩ : ∃ after, (Loop.start draws lending 0 start).step Double.nearest
      draws lending (governed signer.key siteKey lending.bundle "site-1" undeclared) 0 = .ok after ∧
      after.result.violations = result.violations :=
    ⟨_, bind_eq_ok_iff.mpr ⟨_, hlook, bind_eq_ok_iff.mpr ⟨_, congrArg Prod.fst hcall,
      bind_eq_ok_iff.mpr ⟨_, hfound, bind_eq_ok_iff.mpr ⟨_, hcarry, rfl⟩⟩⟩⟩, rfl⟩
  refine ⟨start, after.result, ?_, ?_⟩
  · exact bind_eq_ok_iff.mpr ⟨start, hreset, bind_eq_ok_iff.mpr ⟨1, rfl,
      bind_eq_ok_iff.mpr ⟨after, bind_eq_ok_iff.mpr ⟨_, rfl, hstep⟩, rfl⟩⟩⟩
  · rw [hviolations, (carryAll_tallies hcarry).2]

end Sample

/-- The one violation of a run is excused: the link was lent. -/
theorem run_excused_sample : ∃ s start result v,
    run Double.nearest Sample.draws Sample.lending (governed Sample.signer.key Sample.siteKey
      Sample.lending.bundle "site-1" Sample.undeclared) s 0 = .ok result ∧
    result.violations = [v] ∧ v.requirement = unencryptedPath ∧
    ExcusedIn Double.nearest Sample.draws Sample.lending Sample.undeclared
      (Loop.after Double.nearest Sample.draws Sample.lending (governed Sample.signer.key
        Sample.siteKey Sample.lending.bundle "site-1" Sample.undeclared)
        (.start Sample.draws Sample.lending 0 start)) result.steps v := by
  obtain ⟨s, result, hrun, hviolations⟩ := Sample.lending_run
  obtain ⟨start, -, hexcused⟩ := run_excused lawful_standIn Sample.covers_lending hrun
  refine ⟨s, start, result, Sample.lentViolation, hrun, hviolations, rfl, ?_⟩
  exact (hexcused _ (hviolations ▸ List.mem_singleton_self _)).1

end Pilotfish
