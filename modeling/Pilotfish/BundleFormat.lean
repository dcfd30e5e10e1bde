import Pilotfish.Signer

/-!
# What the decoder makes of a bundle

A bundle is decoded by position: elements that are not asked for are not looked at, a text where
a list belongs is taken apart into characters, and a flag where an instant belongs is a number.

Results:
1. `format_fields`: what a bundle encodes to has the format of a bundle.
2. `fields_of_format`: what has that format, and is accepted, is encoded again as it was.
3. `decodeBundle_faithful_iff`: of all that is accepted nothing else is.
-/

namespace Pilotfish
open Python

/-! ## The format -/

/-- A rule entry: the kind and as many fields as the kind has. -/
inductive RuleFormat : Value → Prop
  | linkDown (ruleId : Value) : RuleFormat (.list [.str "down", ruleId])
  | maxRtt (ruleId classId : Value) : RuleFormat (.list [.str "max_rtt", ruleId, classId])
  | metered (ruleId classId : Value) : RuleFormat (.list [.str "metered", ruleId, classId])
  | quota (ruleId linkType thresholdPct : Value) :
      RuleFormat (.list [.str "quota", ruleId, linkType, thresholdPct])
  | evidenceFreshness (ruleId linkType quantity maxAgeS : Value) :
      RuleFormat (.list [.str "freshness", ruleId, linkType, quantity, maxAgeS])
  | jurisdiction (ruleId classId : Value) : RuleFormat (.list [.str "jurisdiction", ruleId, classId])
  | encryption (ruleId classId : Value) : RuleFormat (.list [.str "encryption", ruleId, classId])
  | linkType (ruleId linkType reasonText : Value) :
      RuleFormat (.list [.str "link_type", ruleId, linkType, reasonText])
  | directive (ruleId linkId reasonText : Value) (notAfter : Int) :
      RuleFormat (.list [.str "directive", ruleId, linkId, reasonText, .int notAfter])

inductive LinkFormat : Value → Prop
  | mk (id type metered encryptedBelow owner : Value) (jurisdictions : List Value) :
      LinkFormat (.list [id, type, metered, encryptedBelow, .list jurisdictions, owner])

inductive ClassFormat : Value → Prop
  | anywhere (id maxRttMs allowMetered requiresEncryption : Value) :
      ClassFormat (.list [id, maxRttMs, allowMetered, .null, requiresEncryption])
  | within (id maxRttMs allowMetered requiresEncryption : Value) (allowed : List Value) :
      ClassFormat (.list [id, maxRttMs, allowMetered, .list allowed, requiresEncryption])

/-- The array of a bundle: instants are integers, and links, classes and rules are lists. -/
inductive BundleFormat : Value → Prop
  | mk (bundleId authorityId sequence decisionTtlS : Value) (issuedAt notAfter : Int)
      (links classes rules : List Value) (hlinks : ∀ l ∈ links, LinkFormat l)
      (hclasses : ∀ c ∈ classes, ClassFormat c) (hrules : ∀ r ∈ rules, RuleFormat r) :
      BundleFormat (.list [bundleId, authorityId, sequence, .int issuedAt, .int notAfter,
        decisionTtlS, .list links, .list classes, .list rules])

/-! ## What is encoded has the format -/

theorem format_encodeRule (r : WireRule) : RuleFormat (encodeRule r) := by
  cases r <;> constructor

theorem format_encodeLink (l : WireLink) : LinkFormat (encodeLink l) := .mk _ _ _ _ _ _

theorem format_encodeClass (c : WireClass) : ClassFormat (encodeClass c) := by
  rcases c with ⟨id, rtt, metered, _ | allowed, enc⟩
  · exact .anywhere _ _ _ _
  · exact .within _ _ _ _ _

theorem format_fields (b : WireBundle) : BundleFormat b.fields :=
  .mk _ _ _ _ _ _ _ _ _ (List.forall_mem_map.mpr fun l _ => format_encodeLink l)
    (List.forall_mem_map.mpr fun c _ => format_encodeClass c)
    (List.forall_mem_map.mpr fun r _ => format_encodeRule r)

/-! ## What has the format is encoded again as it was -/

theorem value_of_requireFinite {fieldName : String} {v : Value} {x : Option Num}
    (h : requireFinite fieldName v = .ok x) : OnWire.value x = v := by
  unfold requireFinite at h
  split at h
  · cases h
    rfl
  · cases h
  · cases h
    rfl
  · cases h

theorem seconds_of_fromtimestamp {n : Int} {t : DateTime}
    (h : DateTime.fromtimestamp (.int n) = .ok t) : ts t = .int n :=
  congrArg Value.int (DateTime.seconds_ofSeconds h)

theorem encodeRule_of_format {v : Value} {r : WireRule} (hv : RuleFormat v)
    (h : decodeRule v = .ok r) : encodeRule r = v := by
  cases hv with
  | quota ruleId linkType thresholdPct =>
    have h' : (requireFinite "QuotaRule.threshold_pct" thresholdPct >>= fun x =>
      .ok (.quota ruleId linkType x)) = .ok r := h
    obtain ⟨x, hx, hret⟩ := bind_eq_ok_iff.mp h'
    obtain rfl := Except.ok.inj hret
    rw [encodeRule, value_of_requireFinite hx]
    rfl
  | evidenceFreshness ruleId linkType quantity maxAgeS =>
    have h' : (requireFinite "EvidenceFreshnessRule.max_age_s" maxAgeS >>= fun x =>
      .ok (.evidenceFreshness ruleId linkType quantity x)) = .ok r := h
    obtain ⟨x, hx, hret⟩ := bind_eq_ok_iff.mp h'
    obtain rfl := Except.ok.inj hret
    rw [encodeRule, value_of_requireFinite hx]
    rfl
  | directive ruleId linkId reasonText notAfter =>
    have h' : (DateTime.fromtimestamp (.int notAfter) >>= fun t =>
      .ok (.directive ruleId linkId reasonText t)) = .ok r := h
    obtain ⟨t, ht, hret⟩ := bind_eq_ok_iff.mp h'
    obtain rfl := Except.ok.inj hret
    rw [encodeRule, seconds_of_fromtimestamp ht]
    rfl
  | _ =>
    obtain rfl := Except.ok.inj h
    rfl

theorem encodeList_value (xs : List Value) : encodeList xs = .list xs :=
  congrArg Value.list (List.map_id xs)

theorem encodeLink_of_format {v : Value} {l : WireLink} (hv : LinkFormat v)
    (h : decodeLink v = .ok l) : encodeLink l = v := by
  cases hv
  obtain rfl := Except.ok.inj h
  rw [encodeLink, encodeList_value]
  rfl

theorem encodeClass_of_format {v : Value} {c : WireClass} (hv : ClassFormat v)
    (h : decodeClass v = .ok c) : encodeClass c = v := by
  cases hv with
  | anywhere id maxRttMs allowMetered requiresEncryption =>
    have h' : (requireFinite "TrafficClass.max_rtt_ms" maxRttMs >>= fun x =>
      .ok ⟨id, x, allowMetered, none, requiresEncryption⟩) = .ok c := h
    obtain ⟨x, hx, hret⟩ := bind_eq_ok_iff.mp h'
    obtain rfl := Except.ok.inj hret
    rw [encodeClass, value_of_requireFinite hx]
    rfl
  | within id maxRttMs allowMetered requiresEncryption allowed =>
    have h' : (requireFinite "TrafficClass.max_rtt_ms" maxRttMs >>= fun x =>
      .ok ⟨id, x, allowMetered, some allowed, requiresEncryption⟩) = .ok c := h
    obtain ⟨x, hx, hret⟩ := bind_eq_ok_iff.mp h'
    obtain rfl := Except.ok.inj hret
    rw [encodeClass, value_of_requireFinite hx, Option.elim_some, encodeList_value]
    rfl

/-- A tuple whose elements are encoded again as they were. -/
theorem map_of_tupleOf {α : Type} {f : Value → Except Exc α} {g : α → Value} {xs : List Value}
    {ys : List α} (hfg : ∀ x ∈ xs, ∀ y, f x = .ok y → g y = x)
    (h : tupleOf f (.list xs) = .ok ys) : ys.map g = xs := by
  have h' : xs.mapM f = .ok ys := h
  have hrel := mapM_eq_ok_iff.mp h'
  clear h h'
  induction hrel with
  | nil => rfl
  | cons hxy _ ih =>
    rw [List.map_cons, hfg _ List.mem_cons_self _ hxy,
      ih fun x hx => hfg x (List.mem_cons_of_mem _ hx)]

section
variable {rt : Runtime} {payload v : Value} {b : WireBundle}
  (hload : rt.loadsValue payload = .ok v) (h : decodeBundle rt payload = .ok b)
include hload h

theorem fields_of_format (hv : BundleFormat v) : b.fields = v := by
  rw [decodeBundle, hload] at h
  cases hv with
  | mk bundleId authorityId sequence decisionTtlS issuedAt notAfter links classes rules hlinks
      hclasses hrules =>
    have h' : (do
      let issued ← DateTime.fromtimestamp (.int issuedAt)
      let expires ← DateTime.fromtimestamp (.int notAfter)
      let ls ← tupleOf decodeLink (.list links)
      let cs ← tupleOf decodeClass (.list classes)
      let rs ← tupleOf decodeRule (.list rules)
      return (⟨bundleId, authorityId, sequence, issued, expires, decisionTtlS, ls, cs, rs⟩ :
        WireBundle)) = .ok b := h
    simp only [bind_eq_ok_iff] at h'
    obtain ⟨issued, hissued, expires, hexpires, ls, hls, cs, hcs, rs, hrs, hret⟩ := h'
    obtain rfl := Except.ok.inj hret
    rw [PolicyBundle.fields, seconds_of_fromtimestamp hissued, seconds_of_fromtimestamp hexpires,
      map_of_tupleOf (fun x hx y => encodeLink_of_format (hlinks x hx)) hls,
      map_of_tupleOf (fun x hx y => encodeClass_of_format (hclasses x hx)) hcs,
      map_of_tupleOf (fun x hx y => encodeRule_of_format (hrules x hx)) hrs]
    rfl

/-- An accepted payload is what its bundle encodes to, and is hashed by, exactly when it has the
format of a bundle. -/
theorem decodeBundle_faithful_iff :
    b.fields = v ∧ b.hash rt = rt.digest v ↔ BundleFormat v := by
  constructor
  · rintro ⟨rfl, -⟩
    exact format_fields b
  · intro hv
    have hfields := fields_of_format hload h hv
    exact ⟨hfields, congrArg rt.digest hfields⟩

end

namespace Sample

/-- The array of the sample bundle with a rule that bears a field too many. -/
def surplus : Value :=
  .list [.str "b1", .str "authority-1", .int 1, .int 1787918400, .int 1787940000, .int 60,
    .list [encodeLink fiber0], .list [encodeClass (TrafficClass.ofId "bulk")],
    .list [.list [.str "metered", .str "R-METER", .str "bulk", .str "outside office hours"]]]

/-- What it is taken for. -/
def withoutSurplus : PolicyBundle :=
  { bundle 1 with links := [fiber0], rules := [.metered "R-METER" "bulk"] }

theorem loads_surplus : standIn.loadsValue (.bytes (standIn.encoding surplus)) = .ok surplus :=
  lawful_standIn.loads_dumps _ (by decide +kernel)

theorem decodeBundle_surplus : decodeBundle standIn (.bytes (standIn.encoding surplus)) =
    .ok withoutSurplus.toWire := by
  rw [decodeBundle, loads_surplus]
  rfl

end Sample

/-- The field is not looked at, and the bundle is hashed without it. -/
theorem surplus_field_ignored :
    standIn.loadsValue (.bytes (standIn.encoding Sample.surplus)) = .ok Sample.surplus ∧
    decodeBundle standIn (.bytes (standIn.encoding Sample.surplus)) =
      .ok Sample.withoutSurplus.toWire ∧
    Sample.withoutSurplus.toWire.fields ≠ Sample.surplus ∧
    Sample.withoutSurplus.toWire.hash standIn ≠ standIn.digest Sample.surplus := by
  have hhash : Sample.withoutSurplus.toWire.hash standIn ≠ standIn.digest Sample.surplus := by
    decide +kernel
  exact ⟨Sample.loads_surplus, Sample.decodeBundle_surplus,
    fun h => hhash (congrArg standIn.digest h), hhash⟩

/-- The array with the field, which does not have the format. -/
theorem decodeBundle_faithful_iff_sample :
    (Sample.withoutSurplus.toWire.fields = Sample.surplus ∧
      Sample.withoutSurplus.toWire.hash standIn = standIn.digest Sample.surplus) ↔
    BundleFormat Sample.surplus :=
  decodeBundle_faithful_iff Sample.loads_surplus Sample.decodeBundle_surplus

end Pilotfish
