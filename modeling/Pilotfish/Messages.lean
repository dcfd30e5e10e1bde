import Pilotfish.Bundle

/-!
# Codecs for the protocol messages

Encoding is one function for declared and for undeclared fields. Decoding checks only what
Python's operations on the decoded objects happen to check, so it builds a bundle, or a
decision, whose fields are objects. An unknown rule kind is fatal.

Results:
1. `decodeBundle_encodeBundle`: what arrives of a bundle is the bundle with its instants cut to
   whole seconds, or the error of an instant that cannot be read back.
2. `decodeFloorConfig_encodeFloorConfig`: the same for a floor with its two bindings.
3. `decodeDecision_encodeDecision`, `encodeDecision_cut`: a decision read back encodes to the
   same bytes.
-/

namespace Pilotfish
open Python

def msgPolicyBundle : String := "POLICY_BUNDLE"
def msgObservationBatch : String := "OBSERVATION_BATCH"
def msgDecisionReceipt : String := "DECISION_RECEIPT"
def msgFloorConfig : String := "FLOOR_CONFIG"

/-- A rule kind this implementation cannot evaluate. -/
def unknownRuleKind (kind : Value) : Exc :=
  ⟨.user "UnknownRuleKind",
    "unknown rule kind " ++ kind.quoted ++ "; refusing to decode a partial policy"⟩

/-- What a decoder builds. -/
abbrev WireLink := Link Value Value
abbrev WireClass := TrafficClass Value Value
abbrev WireRule := Rule Value (Option Num)
abbrev WireBundle := PolicyBundle Value Value (Option Num) Value
abbrev WireDecision := EligibilityDecision Value Value

section Encode
variable {S I N B : Type} [OnWire S] [OnWire I] [OnWire N] [OnWire B]

/-- `_ts`. -/
def ts (t : DateTime) : Value := .int t.seconds

/-- A list of fields. -/
def encodeList {α : Type} [OnWire α] (xs : List α) : Value := .list (xs.map OnWire.value)

def encodeRule : Rule S N → Value
  | .linkDown ruleId => .list [.str "down", OnWire.value ruleId]
  | .maxRtt ruleId classId => .list [.str "max_rtt", OnWire.value ruleId, OnWire.value classId]
  | .metered ruleId classId => .list [.str "metered", OnWire.value ruleId, OnWire.value classId]
  | .quota ruleId linkType thresholdPct =>
      .list [.str "quota", OnWire.value ruleId, OnWire.value linkType, OnWire.value thresholdPct]
  | .evidenceFreshness ruleId linkType quantity maxAgeS =>
      .list [.str "freshness", OnWire.value ruleId, OnWire.value linkType, OnWire.value quantity,
        OnWire.value maxAgeS]
  | .jurisdiction ruleId classId =>
      .list [.str "jurisdiction", OnWire.value ruleId, OnWire.value classId]
  | .encryption ruleId classId =>
      .list [.str "encryption", OnWire.value ruleId, OnWire.value classId]
  | .linkType ruleId linkType reasonText =>
      .list [.str "link_type", OnWire.value ruleId, OnWire.value linkType, OnWire.value reasonText]
  | .directive ruleId linkId reasonText notAfter =>
      .list [.str "directive", OnWire.value ruleId, OnWire.value linkId, OnWire.value reasonText,
        ts notAfter]

def encodeLink (link : Link S B) : Value :=
  .list [OnWire.value link.id, OnWire.value link.type, OnWire.value link.metered,
    OnWire.value link.encryptedBelow, encodeList link.jurisdictions, OnWire.value link.owner]

def encodeClass (c : TrafficClass S B) : Value :=
  .list [OnWire.value c.id, OnWire.value c.maxRttMs, OnWire.value c.allowMetered,
    c.allowedJurisdictions.elim .null encodeList, OnWire.value c.requiresEncryption]

/-- The array a bundle is sent as. -/
def PolicyBundle.fields (bundle : PolicyBundle S I N B) : Value :=
  .list [OnWire.value bundle.bundleId, OnWire.value bundle.authorityId,
    OnWire.value bundle.sequence, ts bundle.issuedAt, ts bundle.notAfter,
    OnWire.value bundle.decisionTtlS, .list (bundle.links.map encodeLink),
    .list (bundle.trafficClasses.map encodeClass), .list (bundle.rules.map encodeRule)]

def encodeBundle (rt : Runtime) (bundle : PolicyBundle S I N B) : Bytes := rt.encoding bundle.fields

/-- The hash of the wire encoding, and nothing else. -/
def PolicyBundle.hash (rt : Runtime) (bundle : PolicyBundle S I N B) : String :=
  hex (rt.sha256 (encodeBundle rt bundle))

def encodeFloorConfig (rt : Runtime) (siteId inventoryHash : String)
    (floor : PolicyBundle S I N B) : Bytes :=
  rt.encoding (.list [.str siteId, .str inventoryHash, .bytes (encodeBundle rt floor)])

def encodeExclusion (e : Exclusion S) : Value :=
  .list [OnWire.value e.linkId, OnWire.value e.ruleId, OnWire.value e.reason]

def encodeEligibility (cls : ClassEligibility S) : Value :=
  .list [OnWire.value cls.classId, encodeList cls.permitted,
    .list (cls.exclusions.map encodeExclusion)]

/-- The array a decision is sent as. -/
def EligibilityDecision.fields (decision : EligibilityDecision S B) : Value :=
  .list [OnWire.value decision.siteId, ts decision.decidedAt, ts decision.validUntil,
    OnWire.value decision.bundleHash, OnWire.value decision.evidenceHash,
    OnWire.value decision.degraded, .list (decision.classes.map encodeEligibility)]

def encodeDecision (rt : Runtime) (decision : EligibilityDecision S B) : Bytes :=
  rt.encoding decision.fields

end Encode

/-! ## Decoding -/

/-- `tuple(f(x) for x in v)`. -/
def tupleOf {α : Type} (f : Value → Except Exc α) (v : Value) : Except Exc (List α) := do
  let xs ← v.iter
  xs.mapM f

/-- The decoders by kind, each given the fields after the kind. -/
def ruleDecoder : String → Option (Value → Except Exc WireRule)
  | "down" => some fun f => do return .linkDown (← f.getItem 0)
  | "max_rtt" => some fun f => do return .maxRtt (← f.getItem 0) (← f.getItem 1)
  | "metered" => some fun f => do return .metered (← f.getItem 0) (← f.getItem 1)
  | "quota" => some fun f => do
      let ruleId ← f.getItem 0
      let linkType ← f.getItem 1
      let thresholdPct ← f.getItem 2
      return .quota ruleId linkType (← requireFinite "QuotaRule.threshold_pct" thresholdPct)
  | "freshness" => some fun f => do
      let ruleId ← f.getItem 0
      let linkType ← f.getItem 1
      let quantity ← f.getItem 2
      let maxAgeS ← f.getItem 3
      return .evidenceFreshness ruleId linkType quantity
        (← requireFinite "EvidenceFreshnessRule.max_age_s" maxAgeS)
  | "jurisdiction" => some fun f => do return .jurisdiction (← f.getItem 0) (← f.getItem 1)
  | "encryption" => some fun f => do return .encryption (← f.getItem 0) (← f.getItem 1)
  | "link_type" => some fun f => do
      return .linkType (← f.getItem 0) (← f.getItem 1) (← f.getItem 2)
  | "directive" => some fun f => do
      return .directive (← f.getItem 0) (← f.getItem 1) (← f.getItem 2)
        (← DateTime.fromtimestamp (← f.getItem 3))
  | _ => none

def decodeRule (fields : Value) : Except Exc WireRule := do
  match ← fields.iter with
  | [] => .error ⟨.ValueError, "not enough values to unpack (expected at least 1, got 0)"⟩
  | kind :: rest =>
      -- `kind` is looked up in a dict, so it is hashed before it can be unknown
      kind.hashable
      let decoder := (OnWire.ofValue? kind : Option String).bind ruleDecoder
      match decoder with
      | none => .error (unknownRuleKind kind)
      | some decode => decode (.list rest)

def decodeLink (f : Value) : Except Exc WireLink := do
  return {
    id := ← f.getItem 0
    type := ← f.getItem 1
    metered := ← f.getItem 2
    encryptedBelow := ← f.getItem 3
    jurisdictions := ← (← f.getItem 4).iter
    owner := ← f.getItem 5 }

/-- The latency bound is checked last, when the class is built. -/
def decodeClass (f : Value) : Except Exc WireClass := do
  let id ← f.getItem 0
  let maxRttMs ← f.getItem 1
  let allowMetered ← f.getItem 2
  let allowedJurisdictions ← match ← f.getItem 3 with
    | .null => pure none
    | v => some <$> v.iter
  let requiresEncryption ← f.getItem 4
  return {
    id := id
    maxRttMs := ← requireFinite "TrafficClass.max_rtt_ms" maxRttMs
    allowMetered := allowMetered
    allowedJurisdictions := allowedJurisdictions
    requiresEncryption := requiresEncryption }

def decodeBundle (rt : Runtime) (payload : Value) : Except Exc WireBundle := do
  let f ← rt.loadsValue payload
  return {
    bundleId := ← f.getItem 0
    authorityId := ← f.getItem 1
    sequence := ← f.getItem 2
    issuedAt := ← DateTime.fromtimestamp (← f.getItem 3)
    notAfter := ← DateTime.fromtimestamp (← f.getItem 4)
    decisionTtlS := ← f.getItem 5
    links := ← tupleOf decodeLink (← f.getItem 6)
    trafficClasses := ← tupleOf decodeClass (← f.getItem 7)
    rules := ← tupleOf decodeRule (← f.getItem 8) }

def decodeFloorConfig (rt : Runtime) (payload : Value) :
    Except Exc (Value × Value × WireBundle) := do
  let f ← rt.loadsValue payload
  return (← f.getItem 0, ← f.getItem 1, ← decodeBundle rt (← f.getItem 2))

def decodeExclusion (e : Value) : Except Exc (Exclusion Value) := do
  return { linkId := ← e.getItem 0, ruleId := ← e.getItem 1, reason := ← e.getItem 2 }

def decodeEligibility (c : Value) : Except Exc (ClassEligibility Value) := do
  return {
    classId := ← c.getItem 0
    permitted := ← (← c.getItem 1).iter
    exclusions := ← tupleOf decodeExclusion (← c.getItem 2) }

def decodeDecision (rt : Runtime) (payload : Value) : Except Exc WireDecision := do
  let f ← rt.loadsValue payload
  return {
    siteId := ← f.getItem 0
    decidedAt := ← DateTime.fromtimestamp (← f.getItem 1)
    validUntil := ← DateTime.fromtimestamp (← f.getItem 2)
    bundleHash := ← f.getItem 3
    evidenceHash := ← f.getItem 4
    degraded := ← f.getItem 5
    classes := ← tupleOf decodeEligibility (← f.getItem 6) }

/-! ## Declared bundles among decoded ones -/

def Link.toWire (l : Link) : WireLink where
  id := OnWire.value l.id
  type := OnWire.value l.type
  metered := OnWire.value l.metered
  encryptedBelow := OnWire.value l.encryptedBelow
  jurisdictions := l.jurisdictions.map OnWire.value
  owner := OnWire.value l.owner

def TrafficClass.toWire (c : TrafficClass) : WireClass where
  id := OnWire.value c.id
  maxRttMs := c.maxRttMs
  allowMetered := OnWire.value c.allowMetered
  allowedJurisdictions := c.allowedJurisdictions.map (·.map OnWire.value)
  requiresEncryption := OnWire.value c.requiresEncryption

def Rule.toWire : Rule → WireRule
  | linkDown ruleId => linkDown (OnWire.value ruleId)
  | maxRtt ruleId classId => maxRtt (OnWire.value ruleId) (OnWire.value classId)
  | metered ruleId classId => metered (OnWire.value ruleId) (OnWire.value classId)
  | quota ruleId type thresholdPct =>
      quota (OnWire.value ruleId) (OnWire.value type) (some thresholdPct)
  | evidenceFreshness ruleId type quantity maxAgeS =>
      evidenceFreshness (OnWire.value ruleId) (OnWire.value type) (OnWire.value quantity)
        (some maxAgeS)
  | jurisdiction ruleId classId => jurisdiction (OnWire.value ruleId) (OnWire.value classId)
  | encryption ruleId classId => encryption (OnWire.value ruleId) (OnWire.value classId)
  | linkType ruleId type reasonText =>
      linkType (OnWire.value ruleId) (OnWire.value type) (OnWire.value reasonText)
  | directive ruleId linkId reasonText notAfter =>
      directive (OnWire.value ruleId) (OnWire.value linkId) (OnWire.value reasonText) notAfter

def PolicyBundle.toWire (b : PolicyBundle) : WireBundle where
  bundleId := OnWire.value b.bundleId
  authorityId := OnWire.value b.authorityId
  sequence := OnWire.value b.sequence
  issuedAt := b.issuedAt
  notAfter := b.notAfter
  decisionTtlS := OnWire.value b.decisionTtlS
  links := b.links.map Link.toWire
  trafficClasses := b.trafficClasses.map TrafficClass.toWire
  rules := b.rules.map Rule.toWire

section Declared
open OnWire (ofValue?)

def Link.declared? (l : WireLink) : Option Link := do
  return {
    id := ← ofValue? l.id
    type := ← ofValue? l.type
    metered := ← ofValue? l.metered
    encryptedBelow := ← ofValue? l.encryptedBelow
    jurisdictions := ← l.jurisdictions.mapM ofValue?
    owner := ← ofValue? l.owner }

def TrafficClass.declared? (c : WireClass) : Option TrafficClass := do
  return {
    id := ← ofValue? c.id
    maxRttMs := c.maxRttMs
    allowMetered := ← ofValue? c.allowMetered
    allowedJurisdictions := ← match c.allowedJurisdictions with
      | none => some none
      | some js => (js.mapM ofValue?).map some
    requiresEncryption := ← ofValue? c.requiresEncryption }

def Rule.declared? : WireRule → Option Rule
  | linkDown ruleId => do return linkDown (← ofValue? ruleId)
  | maxRtt ruleId classId => do return maxRtt (← ofValue? ruleId) (← ofValue? classId)
  | metered ruleId classId => do return metered (← ofValue? ruleId) (← ofValue? classId)
  | quota ruleId type thresholdPct => do
      return quota (← ofValue? ruleId) (← ofValue? type) (← thresholdPct)
  | evidenceFreshness ruleId type quantity maxAgeS => do
      return evidenceFreshness (← ofValue? ruleId) (← ofValue? type) (← ofValue? quantity)
        (← maxAgeS)
  | jurisdiction ruleId classId => do return jurisdiction (← ofValue? ruleId) (← ofValue? classId)
  | encryption ruleId classId => do return encryption (← ofValue? ruleId) (← ofValue? classId)
  | linkType ruleId type reasonText => do
      return linkType (← ofValue? ruleId) (← ofValue? type) (← ofValue? reasonText)
  | directive ruleId linkId reasonText notAfter => do
      return directive (← ofValue? ruleId) (← ofValue? linkId) (← ofValue? reasonText) notAfter

/-- The bundle of declared types that a decoded one is, if it is one. -/
def PolicyBundle.declared? (w : WireBundle) : Option PolicyBundle := do
  return {
    bundleId := ← ofValue? w.bundleId
    authorityId := ← ofValue? w.authorityId
    sequence := ← ofValue? w.sequence
    issuedAt := w.issuedAt
    notAfter := w.notAfter
    decisionTtlS := ← ofValue? w.decisionTtlS
    links := ← w.links.mapM Link.declared?
    trafficClasses := ← w.trafficClasses.mapM TrafficClass.declared?
    rules := ← w.rules.mapM Rule.declared? }

end Declared

theorem Link.declared?_toWire (l : Link) : declared? l.toWire = some l := by
  simp only [declared?, toWire, OnWire.ofValue?_value, mapM_map_some OnWire.ofValue?_value]
  rfl

theorem TrafficClass.declared?_toWire (c : TrafficClass) : declared? c.toWire = some c := by
  rcases c with ⟨id, rtt, metered, _ | js, enc⟩
  · rfl
  · simp only [declared?, toWire, OnWire.ofValue?_value, Option.map_some,
      mapM_map_some OnWire.ofValue?_value]
    rfl

theorem Rule.declared?_toWire (r : Rule) : declared? r.toWire = some r := by
  cases r <;> rfl

theorem PolicyBundle.declared?_toWire (b : PolicyBundle) : declared? b.toWire = some b := by
  simp only [declared?, toWire, OnWire.ofValue?_value, mapM_map_some Link.declared?_toWire,
    mapM_map_some TrafficClass.declared?_toWire, mapM_map_some Rule.declared?_toWire]
  rfl

theorem PolicyBundle.toWire_injective {b c : PolicyBundle} (h : b.toWire = c.toWire) : b = c := by
  have hb := declared?_toWire b
  rw [h, declared?_toWire] at hb
  exact (Option.some.inj hb).symm

/-! ## Round trips -/

/-- A rule with its instant cut to the whole second. -/
def Rule.cut {S N : Type} : Rule S N → Except Exc (Rule S N)
  | directive ruleId linkId reasonText notAfter => do
      return directive ruleId linkId reasonText (← notAfter.cut)
  | rule => .ok rule

/-- A bundle with its instants cut to the whole second, in the order they are read. -/
def PolicyBundle.cut {S I N B : Type} (b : PolicyBundle S I N B) :
    Except Exc (PolicyBundle S I N B) := do
  let issuedAt ← b.issuedAt.cut
  let notAfter ← b.notAfter.cut
  let rules ← b.rules.mapM Rule.cut
  return { b with issuedAt := issuedAt, notAfter := notAfter, rules := rules }

theorem requireFinite_some (fieldName : String) (x : Num) :
    requireFinite fieldName x.value = .ok (some x) := by
  obtain ⟨v, hv⟩ := x
  unfold requireFinite
  split
  · next _ heq => subst heq; cases hv
  · next heq _ => exact absurd (hv.symm.trans heq) (by simp)
  · rfl
  · next heq _ => exact absurd (hv.symm.trans heq) (by simp)

theorem requireFinite_value (fieldName : String) (x : Option Num) :
    requireFinite fieldName (OnWire.value x) = .ok x := by
  cases x with
  | none => rfl
  | some x => exact requireFinite_some fieldName x

theorem decodeRule_encodeRule (r : Rule) :
    decodeRule (encodeRule r) = r.cut.map Rule.toWire := by
  cases r with
  | directive ruleId linkId reasonText notAfter =>
    show (do
      let t ← notAfter.cut
      return Rule.directive (.str ruleId) (.str linkId) (.str reasonText) t :
        Except Exc WireRule) = _
    rw [Rule.cut]
    cases notAfter.cut <;> rfl
  | quota ruleId type thresholdPct =>
    show (do
      return Rule.quota (.str ruleId) (.str type)
        (← requireFinite "QuotaRule.threshold_pct" thresholdPct.value) : Except Exc WireRule) = _
    rw [requireFinite_some]
    rfl
  | evidenceFreshness ruleId type quantity maxAgeS =>
    show (do
      return Rule.evidenceFreshness (.str ruleId) (.str type) (.str quantity)
        (← requireFinite "EvidenceFreshnessRule.max_age_s" maxAgeS.value) : Except Exc WireRule) = _
    rw [requireFinite_some]
    rfl
  | _ => rfl

theorem decodeLink_encodeLink (l : Link) : decodeLink (encodeLink l) = .ok l.toWire := rfl

theorem decodeClass_encodeClass (c : TrafficClass) :
    decodeClass (encodeClass c) = .ok c.toWire := by
  rcases c with ⟨id, rtt, metered, _ | js, enc⟩
  · show (do
      return (⟨.str id, ← requireFinite "TrafficClass.max_rtt_ms" (OnWire.value rtt), .bool metered,
        none, .bool enc⟩ : WireClass) : Except Exc WireClass) = _
    rw [requireFinite_value]
    rfl
  · show (do
      return (⟨.str id, ← requireFinite "TrafficClass.max_rtt_ms" (OnWire.value rtt), .bool metered,
        some (js.map OnWire.value), .bool enc⟩ : WireClass) : Except Exc WireClass) = _
    rw [requireFinite_value]
    rfl

/-! ### What is encoded is made of scalars and lists -/

section Plain
open OnWire (Plain)
variable {S I N B : Type} [OnWire S] [OnWire I] [OnWire N] [OnWire B]
  [Plain S] [Plain I] [Plain N] [Plain B]

@[simp] theorem plain_ts (t : DateTime) : (ts t).plain = true := rfl

@[simp] theorem plain_encodeList {α : Type} [OnWire α] [Plain α] (xs : List α) :
    (encodeList xs).plain = true := by
  simp [encodeList]

@[simp] theorem plain_encodeRule (r : Rule S N) : (encodeRule r).plain = true := by
  cases r <;> simp [encodeRule]

@[simp] theorem plain_encodeLink (l : Link S B) : (encodeLink l).plain = true := by
  simp [encodeLink]

@[simp] theorem plain_encodeClass (c : TrafficClass S B) : (encodeClass c).plain = true := by
  cases h : c.allowedJurisdictions <;> simp [encodeClass, h]

theorem PolicyBundle.plain_fields (b : PolicyBundle S I N B) : b.fields.plain = true := by
  simp [fields]

@[simp] theorem plain_encodeEligibility (cls : ClassEligibility S) :
    (encodeEligibility cls).plain = true := by
  simp [encodeEligibility, encodeExclusion]

theorem EligibilityDecision.plain_fields (d : EligibilityDecision S B) :
    d.fields.plain = true := by
  simp [fields]

end Plain

/-! ### Bundles -/

section Laws
variable {rt : Runtime} (laws : rt.Lawful)
include laws

/-- What arrives of a bundle is its declared fields, its instants cut. -/
theorem decodeBundle_encodeBundle (b : PolicyBundle) :
    decodeBundle rt (.bytes (encodeBundle rt b)) = b.cut.map PolicyBundle.toWire := by
  rw [decodeBundle, Runtime.loadsValue, encodeBundle, laws.loads_dumps _ b.plain_fields]
  show (do
    let issuedAt ← b.issuedAt.cut
    let notAfter ← b.notAfter.cut
    let links ← (b.links.map encodeLink).mapM decodeLink
    let trafficClasses ← (b.trafficClasses.map encodeClass).mapM decodeClass
    let rules ← (b.rules.map encodeRule).mapM decodeRule
    return ({ b.toWire with
      issuedAt := issuedAt, notAfter := notAfter, links := links,
      trafficClasses := trafficClasses, rules := rules } : WireBundle)) = _
  rw [mapM_map_ok decodeLink_encodeLink, mapM_map_ok decodeClass_encodeClass,
    mapM_map_eq decodeRule_encodeRule, PolicyBundle.cut]
  cases b.issuedAt.cut with
  | error e => rfl
  | ok issuedAt =>
    cases b.notAfter.cut with
    | error e => rfl
    | ok notAfter => cases b.rules.mapM Rule.cut <;> rfl

theorem decodeFloorConfig_encodeFloorConfig (siteId inventoryHash : String) (b : PolicyBundle) :
    decodeFloorConfig rt (.bytes (encodeFloorConfig rt siteId inventoryHash b)) =
      b.cut.map fun c => (.str siteId, .str inventoryHash, c.toWire) := by
  have hplain : (Value.list [.str siteId, .str inventoryHash,
      .bytes (encodeBundle rt b)]).plain = true := by simp
  rw [decodeFloorConfig, Runtime.loadsValue, encodeFloorConfig, laws.loads_dumps _ hplain]
  show (do
    let floor ← decodeBundle rt (.bytes (encodeBundle rt b))
    return ((.str siteId, .str inventoryHash, floor) : Value × Value × WireBundle)) = _
  rw [decodeBundle_encodeBundle laws]
  cases b.cut <;> rfl

end Laws

/-! ### Decisions -/

def Exclusion.toWire (e : Exclusion) : Exclusion Value :=
  ⟨OnWire.value e.linkId, OnWire.value e.ruleId, OnWire.value e.reason⟩

def ClassEligibility.toWire (cls : ClassEligibility) : ClassEligibility Value where
  classId := OnWire.value cls.classId
  permitted := cls.permitted.map OnWire.value
  exclusions := cls.exclusions.map Exclusion.toWire

def EligibilityDecision.toWire (d : EligibilityDecision) : WireDecision where
  siteId := OnWire.value d.siteId
  decidedAt := d.decidedAt
  validUntil := d.validUntil
  bundleHash := OnWire.value d.bundleHash
  evidenceHash := OnWire.value d.evidenceHash
  degraded := OnWire.value d.degraded
  classes := d.classes.map ClassEligibility.toWire

/-- A decision with its instants cut to the whole second. -/
def EligibilityDecision.cut {S B : Type} (d : EligibilityDecision S B) :
    Except Exc (EligibilityDecision S B) := do
  let decidedAt ← d.decidedAt.cut
  let validUntil ← d.validUntil.cut
  return { d with decidedAt := decidedAt, validUntil := validUntil }

theorem decodeEligibility_encodeEligibility (cls : ClassEligibility) :
    decodeEligibility (encodeEligibility cls) = .ok cls.toWire := by
  show (do
    let exclusions ← (cls.exclusions.map encodeExclusion).mapM decodeExclusion
    return ({ cls.toWire with exclusions := exclusions } : ClassEligibility Value)) = _
  have hexclusion (e : Exclusion) : decodeExclusion (encodeExclusion e) = .ok e.toWire := rfl
  rw [mapM_map_ok hexclusion]
  rfl

/-- What arrives of a decision is its declared fields, its instants cut. -/
theorem decodeDecision_encodeDecision {rt : Runtime} (laws : rt.Lawful) (d : EligibilityDecision) :
    decodeDecision rt (.bytes (encodeDecision rt d)) = d.cut.map EligibilityDecision.toWire := by
  rw [decodeDecision, Runtime.loadsValue, encodeDecision, laws.loads_dumps _ d.plain_fields]
  show (do
    let decidedAt ← d.decidedAt.cut
    let validUntil ← d.validUntil.cut
    let classes ← (d.classes.map encodeEligibility).mapM decodeEligibility
    return ({ d.toWire with
      decidedAt := decidedAt, validUntil := validUntil, classes := classes } : WireDecision)) = _
  rw [mapM_map_ok decodeEligibility_encodeEligibility, EligibilityDecision.cut]
  cases d.decidedAt.cut with
  | error e => rfl
  | ok decidedAt => cases d.validUntil.cut <;> rfl

theorem encodeEligibility_toWire (cls : ClassEligibility) :
    encodeEligibility cls.toWire = encodeEligibility cls := by
  simp [encodeEligibility, ClassEligibility.toWire, Exclusion.toWire, encodeList, encodeExclusion,
    Function.comp_def]

/-- A decision that was read back encodes as the original does. -/
theorem EligibilityDecision.fields_of_cut {d c : EligibilityDecision} (h : d.cut = .ok c) :
    c.toWire.fields = d.fields := by
  rw [cut] at h
  cases hd : d.decidedAt.cut with
  | error e => rw [hd] at h; cases h
  | ok decidedAt =>
    cases hv : d.validUntil.cut with
    | error e => rw [hd, hv] at h; cases h
    | ok validUntil =>
      rw [hd, hv] at h
      cases h
      simp [fields, toWire, ts, DateTime.cut_seconds hd, DateTime.cut_seconds hv,
        encodeEligibility_toWire, Function.comp_def]

theorem encodeDecision_cut (rt : Runtime) {d c : EligibilityDecision} (h : d.cut = .ok c) :
    encodeDecision rt c.toWire = encodeDecision rt d := by
  rw [encodeDecision, encodeDecision, EligibilityDecision.fields_of_cut h]

/-- A decision can be read back unless one of its instants lies past the last second. -/
theorem EligibilityDecision.cut_ok (d : EligibilityDecision) :
    (∃ c, d.cut = .ok c) ↔ d.decidedAt.seconds ≤ maxSecond ∧ d.validUntil.seconds ≤ maxSecond := by
  rw [← DateTime.fromtimestamp_seconds, ← DateTime.fromtimestamp_seconds, cut]
  cases d.decidedAt.cut with
  | error e => simp [bind, Except.bind]
  | ok decidedAt =>
    cases d.validUntil.cut with
    | error e => simp [bind, Except.bind]
    | ok validUntil => simp [bind, Except.bind, pure, Except.pure]

end Pilotfish
