import Pilotfish.Raising
import Pilotfish.Refusals

/-!
# What a refusal is raised as

Whoever delivers a bundle can be told that it is unverified or that it has expired. What arrives
is decoded, measured, encoded again, compared, looked up and shown, and what these raise is not
caught, the decoding of a floor's envelope apart.

Results:
1. `decodeBundle_untyped`, `decodeFloorConfig_untyped`: nothing that is raised where a message is
   decoded is one of the two.
2. `typed_refusals_iff`: no other exception escapes from `accept` exactly when all it looks at
   can be looked at, and none from the constructor exactly when the same holds of the floor.
-/

namespace Pilotfish
open Python Raising

/-- The two exceptions a site refuses a bundle with. -/
def Refusal (e : Exc) : Prop := e.cls = .user "BundleUnverified" ∨ e.cls = .user "BundleExpired"

/-- An exception that is neither. -/
def Untyped (e : Exc) : Prop := ¬Refusal e

/-- The imported decoder raises exceptions of its own. -/
def Runtime.UntypedLoads (rt : Runtime) : Prop := ∀ data, OnlyRaises Untyped (rt.loads data)

/-- So does the encoder: no refusal, and none that a signature is reported invalid by. -/
def Runtime.UntypedDumps (rt : Runtime) : Prop :=
  ∀ v, OnlyRaises (fun e => Untyped e ∧ Exc.isSignatureInvalid e = false) (rt.dumps v)

/-! ## What decoding raises -/

section Decoding

/-- No built-in exception is one of the two. -/
theorem untyped_of_builtin {cls : ExcClass} (m : String) (h : ∀ name, cls ≠ .user name) :
    Untyped ⟨cls, m⟩ := by
  rintro (hcls | hcls)
  · exact h _ hcls
  · exact h _ hcls

@[simp] theorem typeError_untyped {α : Type} (m : String) :
    OnlyRaises Untyped (Value.typeError m : Except Exc α) :=
  onlyRaises_error.mpr (untyped_of_builtin m (by simp))

theorem elim_untyped {α β : Type} {o : Option β} {cls : ExcClass} {m : String}
    {f : β → Except Exc α} (h : ∀ name, cls ≠ .user name)
    (hf : ∀ a, OnlyRaises Untyped (f a)) : OnlyRaises Untyped (o.elim (.error ⟨cls, m⟩) f) := by
  cases o with
  | none => exact onlyRaises_error.mpr (untyped_of_builtin m h)
  | some a => exact hf a

@[simp] theorem getItem_untyped (v : Value) (i : Nat) : OnlyRaises Untyped (v.getItem i) := by
  unfold Value.getItem
  split
  · exact elim_untyped (by simp) fun _ => onlyRaises_ok _
  · exact elim_untyped (by simp) fun _ => onlyRaises_ok _
  · exact elim_untyped (by simp) fun _ => onlyRaises_ok _
  · exact elim_untyped (by simp) fun _ => onlyRaises_ok _
  · split_ifs
    · exact elim_untyped (by simp) fun _ => onlyRaises_ok _
    · exact typeError_untyped _
  · exact typeError_untyped _

@[simp] theorem iter_untyped (v : Value) : OnlyRaises Untyped v.iter := by
  cases v with
  | object o =>
    rw [Value.iter]
    split_ifs
    · exact onlyRaises_ok _
    · exact typeError_untyped _
  | _ => simp [Value.iter]

@[simp] theorem len_untyped (v : Value) : OnlyRaises Untyped v.len := by
  cases v with
  | object o =>
    rw [Value.len]
    split_ifs
    · exact onlyRaises_ok _
    · exact typeError_untyped _
  | _ => simp [Value.len]

@[simp] theorem hashable_untyped (v : Value) : OnlyRaises Untyped v.hashable := by
  cases v with
  | object o =>
    rw [Value.hashable]
    split_ifs
    · exact onlyRaises_ok _
    · exact typeError_untyped _
  | _ => simp [Value.hashable]

@[simp] theorem searchable_untyped (v : Value) : OnlyRaises Untyped v.searchable := by
  cases v <;> simp [Value.searchable]

@[simp] theorem le_untyped (v w : Value) : OnlyRaises Untyped (v.le w) := by
  unfold Value.le
  split <;> simp

mutual

theorem lt_untyped (v w : Value) : OnlyRaises Untyped (v.lt w) := by
  unfold Value.lt
  split
  · exact onlyRaises_ok _
  · exact onlyRaises_ok _
  · next xs ys => exact lts_untyped xs ys
  · exact onlyRaises_ok _
  · split
    · exact onlyRaises_ok _
    · cases v.before w with
      | none => exact typeError_untyped _
      | some b => exact onlyRaises_ok b

theorem lts_untyped (xs ys : List Value) : OnlyRaises Untyped (Value.lt.lts xs ys) := by
  unfold Value.lt.lts
  split
  · exact onlyRaises_ok _
  · exact onlyRaises_ok _
  · next x xs y ys =>
    split_ifs
    · exact lts_untyped xs ys
    · exact lt_untyped x y

end

theorem sorted_untyped (xs : List Value) : OnlyRaises Untyped (Value.sorted xs) := by
  have hunordered : ∀ e, Value.unordered xs = some e → Untyped e := by
    induction xs with
    | nil => simp [Value.unordered]
    | cons x xs ih =>
      intro e he
      rcases Option.or_eq_some_iff.mp he with hfirst | ⟨-, hrest⟩
      · obtain ⟨y, -, hy⟩ := List.exists_of_findSome?_eq_some hfirst
        cases hlt : y.lt x with
        | error e' =>
          rw [hlt] at hy
          obtain rfl : e' = e := Option.some.inj hy
          exact lt_untyped y x e' hlt
        | ok b =>
          rw [hlt] at hy
          cases hy
      · exact ih e hrest
  unfold Value.sorted
  split
  · next e he => exact onlyRaises_error.mpr (hunordered e he)
  · exact onlyRaises_ok _

@[simp] theorem isfinite_untyped (v : Value) : OnlyRaises Untyped v.isfinite := by
  cases v with
  | int n =>
    rw [Value.isfinite]
    split_ifs
    · exact onlyRaises_ok _
    · exact onlyRaises_error.mpr (untyped_of_builtin _ (by simp))
  | float x => cases x <;> simp [Value.isfinite]
  | _ => simp [Value.isfinite]

@[simp] theorem requireFinite_untyped (fieldName : String) (v : Value) :
    OnlyRaises Untyped (requireFinite fieldName v) := by
  unfold requireFinite
  split
  · exact onlyRaises_ok _
  · next e _ h => exact onlyRaises_error.mpr (isfinite_untyped _ e h)
  · exact onlyRaises_ok _
  · exact onlyRaises_error.mpr (untyped_of_builtin _ (by simp))

@[simp] theorem fromtimestamp_untyped (v : Value) :
    OnlyRaises Untyped (DateTime.fromtimestamp v) := by
  have hofUs (us : Int) : OnlyRaises Untyped (DateTime.ofUs DateTime.yearOutOfRange us) := by
    unfold DateTime.ofUs
    split_ifs
    · exact onlyRaises_ok _
    · exact onlyRaises_error.mpr (untyped_of_builtin _ (by simp))
  unfold DateTime.fromtimestamp
  split
  · exact hofUs _
  · exact hofUs _
  · exact hofUs _
  · exact hofUs _
  · exact onlyRaises_error.mpr (untyped_of_builtin _ (by simp))
  · exact onlyRaises_error.mpr (untyped_of_builtin _ (by simp))
  · exact typeError_untyped _

@[simp] theorem tupleOf_untyped {α : Type} {f : Value → Except Exc α}
    (h : ∀ v, OnlyRaises Untyped (f v)) (v : Value) : OnlyRaises Untyped (tupleOf f v) :=
  onlyRaises_bind.mpr ⟨iter_untyped v, fun _ _ => onlyRaises_mapM fun x _ => h x⟩

theorem decodeLink_untyped (v : Value) : OnlyRaises Untyped (decodeLink v) := by
  simp [decodeLink]

theorem decodeClass_untyped (v : Value) : OnlyRaises Untyped (decodeClass v) := by
  simp only [decodeClass, onlyRaises_bind, getItem_untyped, true_and]
  intro id _ maxRttMs _ allowMetered _ allowed _
  split <;> simp

theorem ruleDecoder_untyped {kind : String} {decode : Value → Except Exc WireRule}
    (h : ruleDecoder kind = some decode) (v : Value) : OnlyRaises Untyped (decode v) := by
  unfold ruleDecoder at h
  split at h <;> cases h <;> simp

theorem decodeRule_untyped (v : Value) : OnlyRaises Untyped (decodeRule v) := by
  refine onlyRaises_bind.mpr ⟨iter_untyped v, ?_⟩
  intro fields _
  split
  · exact onlyRaises_error.mpr (untyped_of_builtin _ (by simp))
  · next kind rest _ =>
    refine onlyRaises_bind.mpr ⟨hashable_untyped kind, ?_⟩
    intro _ _
    dsimp only
    split
    · exact onlyRaises_error.mpr (by simp [Untyped, Refusal, unknownRuleKind])
    · next decode h =>
      obtain ⟨name, -, hdecode⟩ := Option.bind_eq_some_iff.mp h
      exact ruleDecoder_untyped hdecode _

theorem presentedHash_untyped {rt : Runtime} (hdumps : rt.UntypedDumps)
    (floorLinks : Option (List Link)) (floor : WireBundle) :
    OnlyRaises Untyped (presentedHash rt floorLinks floor) := by
  have hhash {S B : Type} [OnWire S] [OnWire B] (links : List (Link S B)) :
      OnlyRaises Untyped (linkInventoryHash rt links) :=
    onlyRaises_bind.mpr ⟨sorted_untyped _, fun _ _ =>
      onlyRaises_bind.mpr ⟨(hdumps _).mono fun _ h => h.1, fun _ _ => onlyRaises_ok _⟩⟩
  cases floorLinks with
  | none => exact hhash floor.links
  | some links => exact hhash links

variable {rt : Runtime} (hloads : rt.UntypedLoads)
include hloads

theorem loadsValue_untyped (v : Value) : OnlyRaises Untyped (rt.loadsValue v) := by
  cases v <;> simp [Runtime.loadsValue, hloads _]

theorem decodeEnvelope_untyped (data : Bytes) : OnlyRaises Untyped (decodeEnvelope rt data) := by
  refine onlyRaises_bind.mpr ⟨hloads data, ?_⟩
  intro v _
  split
  · simp
  · exact onlyRaises_error.mpr (untyped_of_builtin _ (by simp))

theorem decodeBundle_untyped (v : Value) : OnlyRaises Untyped (decodeBundle rt v) := by
  simp [decodeBundle, loadsValue_untyped hloads, tupleOf_untyped decodeLink_untyped,
    tupleOf_untyped decodeClass_untyped, tupleOf_untyped decodeRule_untyped]

theorem decodeFloorConfig_untyped (v : Value) : OnlyRaises Untyped (decodeFloorConfig rt v) := by
  simp [decodeFloorConfig, loadsValue_untyped hloads, decodeBundle_untyped hloads]

end Decoding

/-! ## What checking raises -/

/-- What can be handed to the key: a nonce of the right length, all that is signed encoded, and a
byte string for the signature. -/
structure WellSealed (rt : Runtime) (envelope : Envelope) : Prop where
  nonce : envelope.nonce.len = .ok nonceBytes
  encodes : rt.Encodes envelope.covered
  signature : ∃ signature, envelope.signature = .bytes signature

section Verify
variable {rt : Runtime} {envelope : Envelope} {key : rt.PublicKey}

theorem verify_of_wellSealed (h : WellSealed rt envelope) :
    verify rt envelope key = .ok () ∨ verify rt envelope key = .error (signatureInvalid envelope) := by
  obtain ⟨hlen, hencodes, signature, hsignature⟩ := h
  have hdumps : rt.dumps (.list [envelope.msgType, envelope.issuer, ts envelope.issuedAt,
      envelope.nonce, envelope.payload]) = _ := Runtime.dumps_eq hencodes
  rw [verify, signingInput, hlen, hsignature]
  simp only [bind, Except.bind, ne_eq, not_true_eq_false, if_false, hdumps]
  split_ifs
  · exact .inl rfl
  · exact .inr rfl

theorem len_cases (v : Value) : (∃ n, v.len = .ok n) ∨ ∃ m, v.len = .error ⟨.TypeError, m⟩ := by
  cases v with
  | object o =>
    by_cases hstr : o.typeName = "str"
    · exact .inl ⟨_, if_pos hstr⟩
    · exact .inr ⟨_, if_neg hstr⟩
  | _ => simp [Value.len, Value.typeError]

/-- What cannot be handed to it is met with an exception that is neither a refusal nor caught. -/
theorem verify_of_not_wellSealed (hdumps : rt.UntypedDumps) (h : ¬WellSealed rt envelope) :
    ∃ e, verify rt envelope key = .error e ∧ Untyped e ∧ Exc.isSignatureInvalid e = false := by
  have hbuiltin {cls : ExcClass} (m : String) (hcls : ∀ name, cls ≠ .user name) :
      Untyped ⟨cls, m⟩ ∧ Exc.isSignatureInvalid ⟨cls, m⟩ = false :=
    ⟨untyped_of_builtin m hcls, by simpa [Exc.isSignatureInvalid] using hcls "SignatureInvalid"⟩
  rw [verify, signingInput]
  rcases len_cases envelope.nonce with ⟨length, hlen⟩ | ⟨m, hlen⟩
  · rw [hlen]
    by_cases hn : length = nonceBytes
    · subst hn
      simp only [bind, Except.bind, ne_eq, not_true_eq_false, if_false]
      cases hcovered : rt.dumps (.list [envelope.msgType, envelope.issuer, ts envelope.issuedAt,
          envelope.nonce, envelope.payload]) with
      | error e => exact ⟨e, rfl, hdumps _ e hcovered⟩
      | ok material =>
        cases hsignature : envelope.signature with
        | bytes signature => exact absurd ⟨hlen, ⟨material, hcovered⟩, signature, hsignature⟩ h
        | _ => exact ⟨_, rfl, hbuiltin _ (by simp)⟩
    · simp only [bind, Except.bind, ne_eq, hn, not_false_eq_true, if_true]
      exact ⟨_, rfl, hbuiltin _ (by simp)⟩
  · rw [hlen]
    exact ⟨_, rfl, hbuiltin m (by simp)⟩

end Verify

section Stages
variable {P : Exc → Prop} {α : Type} {f : Unit → Except Exc α}

theorem onlyRaises_raiseIf {condition : Bool} {e : Exc} :
    OnlyRaises P (raiseIf condition e >>= f) ↔
    (condition = true → P e) ∧ (condition = false → OnlyRaises P (f ())) := by
  rw [onlyRaises_bind_unit]
  cases condition <;> simp [raiseIf]

variable (hP : ∀ message, P (bundleUnverified message)) (hrefusal : ∀ e, P e → Refusal e)
include hrefusal

theorem not_of_untyped {e : Exc} (he : Untyped e) : ¬P e := fun h => he (hrefusal e h)

/-- The refusal stands if what its message shows can be shown. -/
theorem showing_iff {shown : List Value} {e : Exc} (he : P e) :
    P (showing shown e) ↔ shown.all Value.printable = true := by
  unfold showing
  split_ifs with h
  · exact iff_of_true he h
  · exact iff_of_false (not_of_untyped hrefusal (untyped_of_builtin _ (by simp))) h

include hP

/-- A text that is not the expected one. -/
theorem onlyRaises_mismatch {v : Value} {expected message : String} :
    OnlyRaises P (raiseIf (!v.eq (.str expected)) (showing [v] (bundleUnverified message)) >>= f) ↔
    (v ≠ .str expected → v.printable = true) ∧ (v = .str expected → OnlyRaises P (f ())) := by
  rw [onlyRaises_raiseIf, showing_iff hrefusal (hP message)]
  have heq : (!v.eq (.str expected)) = false ↔ v = .str expected := by simp
  rw [heq, ← Bool.not_eq_false, heq]
  simp

theorem onlyRaises_verify {rt : Runtime} (hdumps : rt.UntypedDumps) {envelope : Envelope}
    {key : rt.PublicKey} {message : Exc → String} :
    OnlyRaises P (rethrow Exc.isSignatureInvalid message (verify rt envelope key) >>= f) ↔
    WellSealed rt envelope ∧ (verify rt envelope key = .ok () → OnlyRaises P (f ())) := by
  rw [onlyRaises_bind_unit, rethrow_eq_ok_iff]
  refine and_congr_left ?_
  intro _
  by_cases hsealed : WellSealed rt envelope
  · refine iff_of_true ?_ hsealed
    rcases verify_of_wellSealed hsealed with hok | hinvalid
    · rw [hok]
      exact onlyRaises_ok ()
    · rw [hinvalid]
      exact onlyRaises_error.mpr (hP _)
  · refine iff_of_false ?_ hsealed
    obtain ⟨e, hraised, huntyped, huncaught⟩ := verify_of_not_wellSealed hdumps hsealed
    rw [hraised, rethrow, huncaught]
    exact fun h => not_of_untyped hrefusal huntyped (onlyRaises_error.mp h)

end Stages

/-! ## What is looked at -/

section Legible
variable {rt : Runtime}

/-- All that is looked at of a floor can be. -/
def FloorLegible (trustedKey : rt.PublicKey) (expectedIssuer siteId : String) (signedFloor : Bytes)
    (floorLinks : Option (List Link)) : Prop :=
  ∀ envelope, decodeEnvelope rt signedFloor = .ok envelope →
    (envelope.msgType ≠ .str msgFloorConfig → envelope.msgType.printable = true) ∧
    (envelope.msgType = .str msgFloorConfig →
      (envelope.issuer ≠ .str expectedIssuer → envelope.issuer.printable = true) ∧
      (envelope.issuer = .str expectedIssuer → WellSealed rt envelope ∧
        (verify rt envelope trustedKey = .ok () → ∃ site inventoryHash floor,
          decodeFloorConfig rt envelope.payload = .ok (site, inventoryHash, floor) ∧
          (site ≠ .str siteId → site.printable = true) ∧
          (site = .str siteId → ∃ hash, presentedHash rt floorLinks floor = .ok hash))))

namespace BundleStore

/-- All that is looked at of a verified payload can be. -/
def LegiblePayload (s : BundleStore rt) (now : DateTime) (payload : Value) : Prop :=
  ∃ bundle, decodeBundle rt payload = .ok bundle ∧
    (bundle.authorityId ≠ .str s.expectedIssuer → bundle.authorityId.printable = true) ∧
    (bundle.authorityId = .str s.expectedIssuer → ∃ superseded,
      bundle.sequence.le s.sequence = .ok superseded ∧
      (superseded = true → bundle.sequence.printable = true ∧ s.sequence.printable = true) ∧
      (superseded = false → bundle.notAfter.us ≤ now.us → bundle.bundleId.printable = true))

/-- All that is looked at of a delivery can be. -/
def Legible (s : BundleStore rt) (envelopeBytes : Bytes) (now : DateTime) : Prop :=
  ∃ envelope, decodeEnvelope rt envelopeBytes = .ok envelope ∧
    (envelope.msgType ≠ .str msgPolicyBundle → envelope.msgType.printable = true) ∧
    (envelope.msgType = .str msgPolicyBundle →
      (envelope.issuer ≠ .str s.expectedIssuer → envelope.issuer.printable = true) ∧
      (envelope.issuer = .str s.expectedIssuer → envelope.issuedAt.timestamp ≤ horizon now →
        WellSealed rt envelope ∧ (verify rt envelope s.trustedKey = .ok () →
          envelope.nonce.searchable = .ok () ∧
          (s.seenNonces.any (·.eq envelope.nonce) = false →
            s.LegiblePayload now envelope.payload))))

/-- The nonce of a bundle whose mark is committed can be put on record. -/
def Recordable (s : BundleStore rt) (epochs : EpochStore) (faults : EpochFaults)
    (envelopeBytes : Bytes) (now : DateTime) : Prop :=
  ∀ envelope bundle, s.Admitted envelopeBytes now envelope bundle →
    (epochs.commit faults bundle.sequence).1 = .ok () → ∀ xs, envelope.nonce ≠ .set xs

end BundleStore

variable (hloads : rt.UntypedLoads) (hdumps : rt.UntypedDumps)
include hloads hdumps

theorem vet_typed_iff (s : BundleStore rt) (envelopeBytes : Bytes) (now : DateTime) :
    OnlyRaises Refusal (s.vet envelopeBytes now) ↔ s.Legible envelopeBytes now := by
  have hP (m : String) : Refusal (bundleUnverified m) := .inl rfl
  have hexpired (b : WireBundle) : Refusal (bundleExpired b) := .inr rfl
  unfold BundleStore.vet BundleStore.Legible
  -- the stages in their order, each reached where those before it passed
  rw [onlyRaises_bind_iff (decodeEnvelope_untyped hloads _)]
  refine exists_congr fun envelope => and_congr_right ?_
  intro _
  rw [onlyRaises_mismatch hP fun _ => id, onlyRaises_mismatch hP fun _ => id, onlyRaises_raiseIf,
    onlyRaises_verify hP (fun _ => id) hdumps, onlyRaises_bind_iff (searchable_untyped _),
    Unique.exists_iff,
    onlyRaises_raiseIf, onlyRaises_bind_iff (decodeBundle_untyped hloads _)]
  simp only [decide_eq_true_eq, decide_eq_false_iff_not, not_lt, hP, implies_true, true_and]
  refine and_congr_right fun _ => imp_congr_right fun _ => and_congr_right fun _ =>
    imp_congr_right fun _ => imp_congr_right fun _ => and_congr_right fun _ =>
    imp_congr_right fun _ => and_congr_right fun _ => imp_congr_right fun _ => ?_
  refine exists_congr fun bundle => and_congr_right ?_
  intro _
  rw [onlyRaises_mismatch hP fun _ => id, onlyRaises_bind_iff (le_untyped _ _)]
  refine and_congr_right fun _ => imp_congr_right fun _ =>
    exists_congr fun superseded => and_congr_right fun _ => ?_
  rw [onlyRaises_raiseIf, showing_iff (fun _ => id) (hP _), onlyRaises_raiseIf,
    showing_iff (fun _ => id) (hexpired _)]
  simp

theorem installFloor_typed_iff (trustedKey : rt.PublicKey) (expectedIssuer siteId : String)
    (signedFloor : Bytes) (floorLinks : Option (List Link)) :
    OnlyRaises (fun e => e.cls = .user "BundleUnverified")
      (installFloor trustedKey expectedIssuer siteId signedFloor floorLinks) ↔
    FloorLegible trustedKey expectedIssuer siteId signedFloor floorLinks := by
  have hP (m : String) : (bundleUnverified m).cls = .user "BundleUnverified" := rfl
  have hrefusal (e : Exc) (he : e.cls = .user "BundleUnverified") : Refusal e := .inl he
  have huntyped {α : Type} {x : Except Exc α} (hx : OnlyRaises Untyped x) :
      OnlyRaises (fun e => ¬e.cls = .user "BundleUnverified") x :=
    hx.mono fun e he => not_of_untyped hrefusal he
  have hdecode : OnlyRaises (fun e => e.cls = .user "BundleUnverified")
      (rethrow (fun _ => true) (fun e => "floor configuration does not decode: " ++ e.message)
        (decodeEnvelope rt signedFloor)) := by
    cases decodeEnvelope rt signedFloor with
    | error e => exact onlyRaises_error.mpr (hP _)
    | ok envelope => exact onlyRaises_ok envelope
  unfold installFloor FloorLegible
  rw [onlyRaises_bind]
  simp only [hdecode, true_and, rethrow_eq_ok_iff]
  refine forall_congr' fun envelope => imp_congr_right ?_
  intro _
  rw [onlyRaises_mismatch hP hrefusal, onlyRaises_mismatch hP hrefusal,
    onlyRaises_verify hP hrefusal hdumps,
    onlyRaises_bind_iff (huntyped (decodeFloorConfig_untyped hloads _)),
    Prod.exists]
  refine and_congr_right fun _ => imp_congr_right fun _ => and_congr_right fun _ =>
    imp_congr_right fun _ => and_congr_right fun _ => imp_congr_right fun _ =>
    exists_congr fun site => ?_
  rw [Prod.exists]
  refine exists_congr fun inventoryHash => exists_congr fun floor => and_congr_right ?_
  intro _
  dsimp only
  rw [onlyRaises_mismatch hP hrefusal,
    onlyRaises_bind_iff (huntyped (presentedHash_untyped hdumps floorLinks floor))]
  refine and_congr_right fun _ => imp_congr_right fun _ => exists_congr ?_
  intro hash
  rw [onlyRaises_raiseIf]
  simp [hP]

section Accept
variable {s : BundleStore rt} {epochs : EpochStore} {faults : EpochFaults} {envelopeBytes : Bytes}
  {now : DateTime}

omit hloads hdumps in
/-- Only one bundle is admitted of a delivery. -/
theorem admitted_unique {envelope envelope' : Envelope} {bundle bundle' : WireBundle}
    (h : s.Admitted envelopeBytes now envelope bundle)
    (h' : s.Admitted envelopeBytes now envelope' bundle') : bundle = bundle' := by
  have hvet := BundleStore.vet_ok.mpr ⟨_, h, rfl⟩
  rw [BundleStore.vet_ok.mpr ⟨_, h', rfl⟩] at hvet
  exact (Prod.mk.inj (Except.ok.inj hvet)).1.symm

omit hloads hdumps in
/-- Where an exception that `accept` raises comes from: the checks, the commit, or a nonce that
cannot be put on record. -/
theorem accept_raises {e : Exc} (h : (s.accept epochs faults envelopeBytes now).1 = .error e) :
    s.vet envelopeBytes now = .error e ∨
    ∃ envelope bundle, s.Admitted envelopeBytes now envelope bundle ∧
      ((epochs.commit faults bundle.sequence).1 = .error e ∨
        (epochs.commit faults bundle.sequence).1 = .ok () ∧ ∃ xs, envelope.nonce = .set xs) := by
  cases hvet : s.vet envelopeBytes now with
  | error e' =>
    rw [BundleStore.accept_of_refused hvet] at h
    cases h
    exact .inl rfl
  | ok admitted =>
    obtain ⟨bundle, nonce⟩ := admitted
    obtain ⟨envelope, hadmitted, rfl⟩ := BundleStore.vet_ok.mp hvet
    refine .inr ⟨envelope, bundle, hadmitted, ?_⟩
    cases hcommit : (epochs.commit faults bundle.sequence).1 with
    | error e' =>
      rw [BundleStore.accept_of_uncommitted hadmitted hcommit] at h
      cases h
      exact .inl rfl
    | ok u =>
      rw [BundleStore.accept_of_committed hadmitted hcommit] at h
      cases hhash : envelope.nonce.hashable with
      | error e' =>
        exact .inr ⟨rfl, BundleStore.set_of_unhashable hadmitted.searchable hhash⟩
      | ok u =>
        rw [hhash] at h
        cases h

end Accept

theorem accept_typed_iff (s : BundleStore rt) (epochs : EpochStore) (faults : EpochFaults)
    (envelopeBytes : Bytes) (now : DateTime) :
    (∀ e, (s.accept epochs faults envelopeBytes now).1 = .error e → Refusal e ∨
      ∃ envelope bundle, s.Admitted envelopeBytes now envelope bundle ∧
        (epochs.commit faults bundle.sequence).1 = .error e) ↔
    s.Legible envelopeBytes now ∧ s.Recordable epochs faults envelopeBytes now := by
  rw [← vet_typed_iff hloads hdumps]
  constructor
  · intro h
    refine ⟨?_, ?_⟩
    · intro e he
      rcases h e (by rw [BundleStore.accept_of_refused he]) with hrefusal | ⟨_, _, hadmitted, -⟩
      · exact hrefusal
      · cases he.symm.trans (BundleStore.vet_ok.mpr ⟨_, hadmitted, rfl⟩)
    · intro envelope bundle hadmitted hcommit xs hset
      have haccept := BundleStore.accept_of_committed hadmitted hcommit
      rw [hset] at haccept
      rcases h _ (congrArg Prod.fst haccept) with hrefusal | ⟨_, _, hadmitted', hfailed⟩
      · exact absurd hrefusal (untyped_of_builtin _ (by simp))
      · rw [← admitted_unique hadmitted hadmitted', hcommit] at hfailed
        cases hfailed
  · rintro ⟨hvet, hrecordable⟩ e he
    rcases accept_raises he with hraised | ⟨envelope, bundle, hadmitted, hfailed | ⟨hcommit, xs, hset⟩⟩
    · exact .inl (hvet e hraised)
    · exact .inr ⟨envelope, bundle, hadmitted, hfailed⟩
    · exact absurd hset (hrecordable envelope bundle hadmitted hcommit xs)

omit hloads hdumps in
/-- A mark that is there and no number is all that reading it finds wrong. -/
theorem isEpochUnreadable_of_read {epochs : EpochStore} {e : Exc} (h : epochs.read = .error e) :
    Exc.isEpochUnreadable e = true := by
  unfold EpochStore.read at h
  split at h
  · cases h
  · split at h
    · cases h
    · split at h
      · cases h
      · cases h
        rfl

theorem init_typed_iff (trustedKey : rt.PublicKey) (expectedIssuer siteId : String)
    (signedFloor : Bytes) (floorLinks : Option (List Link)) (epochs : EpochStore)
    (readFault : Option Exc) :
    (∀ e, BundleStore.init trustedKey expectedIssuer siteId signedFloor floorLinks epochs
        readFault = .error e → e.cls = .user "BundleUnverified" ∨
      ((∃ floor, installFloor trustedKey expectedIssuer siteId signedFloor floorLinks = .ok floor) ∧
        readFault = some e)) ↔
    FloorLegible trustedKey expectedIssuer siteId signedFloor floorLinks := by
  rw [← installFloor_typed_iff hloads hdumps]
  unfold BundleStore.init
  cases installFloor trustedKey expectedIssuer siteId signedFloor floorLinks with
  | error e =>
    constructor
    · rintro h e' ⟨⟩
      rcases h e rfl with hcls | ⟨⟨_, ⟨⟩⟩, -⟩
      exact hcls
    · rintro h e' ⟨⟩
      exact .inl (h e rfl)
  | ok floor =>
    refine iff_of_true (fun e he => ?_) (onlyRaises_ok floor)
    generalize hr : readFault.elim epochs.read .error = r at he
    cases r with
    | ok sequence => cases he
    | error e' =>
      by_cases hcaught : Exc.isEpochUnreadable e' = true
      · rw [rethrow, if_pos hcaught] at he
        cases he
        exact .inl rfl
      · rw [rethrow, if_neg hcaught] at he
        cases he
        cases readFault with
        | none => exact absurd (isEpochUnreadable_of_read hr) hcaught
        | some fault => exact .inr ⟨⟨floor, rfl⟩, congrArg some (Except.error.inj hr)⟩

/-- Only the two exceptions escape from `accept`, what committing the mark raises apart, exactly
when all that is looked at can be and the nonce can be put on record; and only one of them from
the constructor, what reading the mark raises apart, exactly when all that is looked at of the
floor can be. -/
theorem typed_refusals_iff (s : BundleStore rt) (epochs : EpochStore) (faults : EpochFaults)
    (envelopeBytes : Bytes) (now : DateTime) (trustedKey : rt.PublicKey)
    (expectedIssuer siteId : String) (signedFloor : Bytes) (floorLinks : Option (List Link))
    (readFault : Option Exc) :
    ((∀ e, (s.accept epochs faults envelopeBytes now).1 = .error e → Refusal e ∨
        ∃ envelope bundle, s.Admitted envelopeBytes now envelope bundle ∧
          (epochs.commit faults bundle.sequence).1 = .error e) ↔
      s.Legible envelopeBytes now ∧ s.Recordable epochs faults envelopeBytes now) ∧
    ((∀ e, BundleStore.init trustedKey expectedIssuer siteId signedFloor floorLinks epochs
        readFault = .error e → e.cls = .user "BundleUnverified" ∨
        ((∃ floor, installFloor trustedKey expectedIssuer siteId signedFloor floorLinks = .ok floor) ∧
          readFault = some e)) ↔
      FloorLegible trustedKey expectedIssuer siteId signedFloor floorLinks) :=
  ⟨accept_typed_iff hloads hdumps s epochs faults envelopeBytes now,
    init_typed_iff hloads hdumps trustedKey expectedIssuer siteId signedFloor floorLinks epochs
      readFault⟩

end Legible

namespace Sample

/-- An array of no fields. -/
def noFields : Bytes := [0x80]

/-- A floor that nobody signed, under an empty nonce. -/
def unsignedFloor : Bytes := encodeEnvelope standIn
  ⟨.str msgFloorConfig, .str "authority-1", clock 0, .bytes [], .bytes [], .bytes []⟩

theorem untypedLoads_standIn : standIn.UntypedLoads := by
  intro data e he
  change Cbor.loads data = .error e at he
  unfold Cbor.loads at he
  split at he
  · cases he
  · cases he
    simp [Untyped, Refusal]

theorem untypedDumps_standIn : standIn.UntypedDumps := by
  intro v e he
  change Cbor.dumps v = .error e at he
  unfold Cbor.dumps at he
  split_ifs at he
  cases he
  simp [Untyped, Refusal, Exc.isSignatureInvalid]

end Sample

/-- Neither the array of no fields nor the floor that nobody signed is refused as unverified. -/
theorem untyped_refusals :
    (∃ s : BundleStore standIn,
      BundleStore.init (standIn.publicKey Sample.signer.key) "authority-1" "site-1"
        Sample.signedFloor none (.file ⟨"epoch", none, []⟩) none = .ok s ∧
      s.accept (.file ⟨"epoch", none, []⟩) {} Sample.noFields (Sample.clock 60) =
        (.error ⟨.ValueError, "malformed envelope"⟩, s, .file ⟨"epoch", none, []⟩)) ∧
    (BundleStore.init (standIn.publicKey Sample.signer.key) "authority-1" "site-1"
      Sample.unsignedFloor none (.file ⟨"epoch", none, []⟩) none =
        .error ⟨.ValueError, "nonce must be exactly 16 bytes, got 0"⟩) ∧
    ∀ message, ¬Refusal ⟨.ValueError, message⟩ := by
  have hread : (EpochStore.file ⟨"epoch", none, []⟩).read = .ok (.int noEpoch) := rfl
  obtain ⟨floor, hinit⟩ := Sample.init_ok hread
  refine ⟨⟨_, hinit, BundleStore.accept_of_refused ?_⟩, ?_,
    fun m => untyped_of_builtin m (by simp)⟩
  · have hdecode : decodeEnvelope standIn Sample.noFields =
        .error ⟨.ValueError, "malformed envelope"⟩ := rfl
    rw [BundleStore.vet, hdecode]
    rfl
  · have hdecode : decodeEnvelope standIn Sample.unsignedFloor = .ok
        ⟨.str msgFloorConfig, .str "authority-1", Sample.clock 0, .bytes [], .bytes [], .bytes []⟩ := by
      rw [Sample.unsignedFloor, decodeEnvelope_encodeEnvelope lawful_standIn rfl, Sample.cut_clock]
      rfl
    rw [BundleStore.init, installFloor, hdecode]
    rfl

theorem typed_refusals_iff_sample : ∃ s : BundleStore standIn,
    BundleStore.init (standIn.publicKey Sample.signer.key) "authority-1" "site-1"
      Sample.signedFloor none (.file ⟨"epoch", none, []⟩) none = .ok s ∧
    ((∀ e, (s.accept (.file ⟨"epoch", none, []⟩) {} Sample.noFields (Sample.clock 60)).1 =
        .error e → Refusal e ∨ ∃ envelope bundle,
          s.Admitted Sample.noFields (Sample.clock 60) envelope bundle ∧
          ((EpochStore.file ⟨"epoch", none, []⟩).commit {} bundle.sequence).1 = .error e) ↔
      s.Legible Sample.noFields (Sample.clock 60) ∧
      s.Recordable (.file ⟨"epoch", none, []⟩) {} Sample.noFields (Sample.clock 60)) ∧
    ((∀ e, BundleStore.init (standIn.publicKey Sample.signer.key) "authority-1" "site-1"
        Sample.unsignedFloor none (.file ⟨"epoch", none, []⟩) none = .error e →
        e.cls = .user "BundleUnverified" ∨
        ((∃ floor, installFloor (standIn.publicKey Sample.signer.key) "authority-1" "site-1"
          Sample.unsignedFloor none = .ok floor) ∧ none = some e)) ↔
      FloorLegible (standIn.publicKey Sample.signer.key) "authority-1" "site-1"
        Sample.unsignedFloor none) := by
  have hread : (EpochStore.file ⟨"epoch", none, []⟩).read = .ok (.int noEpoch) := rfl
  obtain ⟨floor, hinit⟩ := Sample.init_ok hread
  exact ⟨_, hinit, typed_refusals_iff Sample.untypedLoads_standIn
    Sample.untypedDumps_standIn _ _ _ _ _
    (standIn.publicKey Sample.signer.key) "authority-1" "site-1" Sample.unsignedFloor none none⟩

end Pilotfish
