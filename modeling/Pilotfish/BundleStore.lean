import Pilotfish.Envelope
import Pilotfish.Epoch

/-!
# The bundle store

The only place a site decides what policy it is under. `vet` is everything `accept` checks
before it writes; a bundle that is refused there, or whose mark cannot be committed, changes
nothing in the store. Nor does one whose nonce cannot be put on record, which is found out when
its mark is committed.

Results:
1. `vet_ok`: a bundle is admitted exactly when it passes all the checks.
2. `accept_cases`: all a call of `accept` can do; `accept_ok`, `accept_error`: a bundle that is
   returned was installed after its mark was committed, an exception leaves the store as it was.
3. `installFloor_ok`, `init_ok`: what a store that was built starts from.
4. `current_not_degraded`, `current_degraded`: what governs at a clock.
-/

namespace Pilotfish
open Python

/-- A policy bundle did not verify under the trusted authority key. -/
def bundleUnverified (message : String) : Exc := ⟨.user "BundleUnverified", message⟩

/-- A policy bundle is outside its validity window. -/
def bundleExpired (bundle : WireBundle) : Exc :=
  ⟨.user "BundleExpired",
    "bundle " ++ bundle.bundleId.text ++ " expired at " ++ bundle.notAfter.isoformat⟩

/-- An exception whose message shows some objects, or what showing them raises. -/
def showing (shown : List Value) (e : Exc) : Exc :=
  if shown.all Value.printable then e else Value.digitsLimit

/-- Run a check and raise `BundleUnverified` for what it raises, if that is caught. -/
def rethrow {α : Type} (caught : Exc → Bool) (message : Exc → String) (r : Except Exc α) :
    Except Exc α :=
  match r with
  | .ok a => .ok a
  | .error e => if caught e then .error (bundleUnverified (message e)) else .error e

/-- `except EpochUnreadable`. -/
def Exc.isEpochUnreadable (e : Exc) : Bool := e.cls = .user "EpochUnreadable"

@[simp] theorem rethrow_eq_ok_iff {α : Type} {caught : Exc → Bool} {message : Exc → String}
    {r : Except Exc α} {a : α} : rethrow caught message r = .ok a ↔ r = .ok a := by
  cases r with
  | ok b => rfl
  | error e => cases h : caught e <;> simp [rethrow, h]

structure BundleStore (rt : Runtime) where
  trustedKey : rt.PublicKey
  expectedIssuer : String
  siteId : String
  floor : WireBundle
  bundle : Option WireBundle
  /-- Highest bundle sequence ever accepted. -/
  sequence : Value
  seenNonces : List Value

variable {rt : Runtime}

/-- The hash of the inventory a site presents, or of the floor's own. -/
def presentedHash (rt : Runtime) (floorLinks : Option (List Link)) (floor : WireBundle) :
    Except Exc String :=
  match floorLinks with
  | some links => linkInventoryHash rt links
  | none => linkInventoryHash rt floor.links

/-- Verify the degraded-mode policy before anything can run under it. -/
def installFloor (trustedKey : rt.PublicKey) (expectedIssuer siteId : String)
    (signedFloor : Bytes) (floorLinks : Option (List Link)) : Except Exc WireBundle := do
  let envelope ← rethrow (fun _ => true)
    (fun e => "floor configuration does not decode: " ++ e.message) (decodeEnvelope rt signedFloor)
  raiseIf (!envelope.msgType.eq (.str msgFloorConfig))
    (showing [envelope.msgType]
      (bundleUnverified ("expected FLOOR_CONFIG, got " ++ envelope.msgType.text)))
  raiseIf (!envelope.issuer.eq (.str expectedIssuer))
    (showing [envelope.issuer]
      (bundleUnverified ("floor issued by " ++ envelope.issuer.quoted ++ ", expected " ++
        (Value.str expectedIssuer).quoted)))
  rethrow Exc.isSignatureInvalid (fun e => "floor configuration did not verify: " ++ e.message)
    (verify rt envelope trustedKey)
  let (floorSite, inventoryHash, floor) ← decodeFloorConfig rt envelope.payload
  raiseIf (!floorSite.eq (.str siteId))
    (showing [floorSite]
      (bundleUnverified ("floor was issued for site " ++ floorSite.quoted ++ ", not " ++
        (Value.str siteId).quoted)))
  -- a floor for other links would refuse by name what this site does not have
  let actualHash ← presentedHash rt floorLinks floor
  raiseIf (!inventoryHash.eq (.str actualHash))
    (bundleUnverified "floor is bound to a different link inventory than this site presents")
  return floor

/-- The bundle that is delivered, if one is, has an integer for its sequence. -/
def IntegerSequence (rt : Runtime) (envelopeBytes : Bytes) : Prop :=
  ∀ envelope bundle, decodeEnvelope rt envelopeBytes = .ok envelope →
    decodeBundle rt envelope.payload = .ok bundle → ∃ n, bundle.sequence = .int n

/-- A mark that can be read is an integer, as it always is in a file. -/
def IntegerMark (epochs : EpochStore) : Prop := ∀ v, epochs.read = .ok v → ∃ m, v = .int m

theorem integerMark_file (file : EpochFile) : IntegerMark (.file file) := by
  intro v h
  unfold EpochStore.read at h
  cases hmark : file.mark with
  | none =>
    simp only [hmark] at h
    exact ⟨noEpoch, (Except.ok.inj h).symm⟩
  | some text =>
    simp only [hmark] at h
    cases hparse : intOf? (strip text) with
    | none => simp [hparse] at h
    | some n =>
      simp only [hparse] at h
      exact ⟨n, (Except.ok.inj h).symm⟩

/-- One call of `accept`. -/
structure Delivery where
  envelopeBytes : Bytes
  now : DateTime
  faults : EpochFaults := {}

namespace BundleStore

/-- Build a store over an epoch store; `readFault` is what reading the mark raises, if
anything. -/
def init (trustedKey : rt.PublicKey) (expectedIssuer siteId : String) (signedFloor : Bytes)
    (floorLinks : Option (List Link)) (epochs : EpochStore) (readFault : Option Exc) :
    Except Exc (BundleStore rt) := do
  let floor ← installFloor trustedKey expectedIssuer siteId signedFloor floorLinks
  let sequence ← rethrow Exc.isEpochUnreadable
    (fun e => "cannot establish the policy high-water mark: " ++ e.message)
    (readFault.elim epochs.read .error)
  return {
    trustedKey := trustedKey
    expectedIssuer := expectedIssuer
    siteId := siteId
    floor := floor
    bundle := none
    sequence := sequence
    seenNonces := [] }

/-- Everything `accept` checks before it commits; the bundle and its nonce. -/
def vet (s : BundleStore rt) (envelopeBytes : Bytes) (now : DateTime) :
    Except Exc (WireBundle × Value) := do
  let envelope ← decodeEnvelope rt envelopeBytes
  raiseIf (!envelope.msgType.eq (.str msgPolicyBundle))
    (showing [envelope.msgType]
      (bundleUnverified ("expected POLICY_BUNDLE, got " ++ envelope.msgType.text)))
  raiseIf (!envelope.issuer.eq (.str s.expectedIssuer))
    (showing [envelope.issuer]
      (bundleUnverified ("issuer " ++ envelope.issuer.quoted ++
        " is not the authority this site answers to (" ++ (Value.str s.expectedIssuer).quoted ++
        ")")))
  raiseIf (horizon now < envelope.issuedAt.timestamp)
    (bundleUnverified ("envelope is stamped in the future: " ++ envelope.issuedAt.isoformat ++
      " exceeds the skew allowance"))
  rethrow Exc.isSignatureInvalid Exc.message (verify rt envelope s.trustedKey)
  -- only after the signature holds, so an unsigned message cannot consume a nonce
  envelope.nonce.searchable
  raiseIf (s.seenNonces.any (·.eq envelope.nonce))
    (bundleUnverified "envelope nonce already seen: replay refused")
  let bundle ← decodeBundle rt envelope.payload
  raiseIf (!bundle.authorityId.eq (.str s.expectedIssuer))
    (showing [bundle.authorityId]
      (bundleUnverified ("bundle names authority " ++ bundle.authorityId.quoted ++ ", expected " ++
        (Value.str s.expectedIssuer).quoted)))
  let superseded ← bundle.sequence.le s.sequence
  raiseIf superseded
    (showing [bundle.sequence, s.sequence]
      (bundleUnverified ("bundle sequence " ++ bundle.sequence.text ++ " does not supersede " ++
        s.sequence.text ++ ": rollback refused")))
  raiseIf (bundle.notAfter.us ≤ now.us) (showing [bundle.bundleId] (bundleExpired bundle))
  return (bundle, envelope.nonce)

/-- What an admitted bundle has passed. -/
structure Admitted (s : BundleStore rt) (envelopeBytes : Bytes) (now : DateTime)
    (envelope : Envelope) (bundle : WireBundle) : Prop where
  decoded : decodeEnvelope rt envelopeBytes = .ok envelope
  typed : envelope.msgType = .str msgPolicyBundle
  issued : envelope.issuer = .str s.expectedIssuer
  stamped : envelope.issuedAt.timestamp ≤ horizon now
  verified : verify rt envelope s.trustedKey = .ok ()
  searchable : envelope.nonce.searchable = .ok ()
  unseen : s.seenNonces.any (·.eq envelope.nonce) = false
  payload : decodeBundle rt envelope.payload = .ok bundle
  authority : bundle.authorityId = .str s.expectedIssuer
  newer : bundle.sequence.le s.sequence = .ok false
  valid : now.us < bundle.notAfter.us

theorem vet_ok {s : BundleStore rt} {envelopeBytes : Bytes} {now : DateTime} {bundle : WireBundle}
    {nonce : Value} : s.vet envelopeBytes now = .ok (bundle, nonce) ↔
    ∃ envelope, s.Admitted envelopeBytes now envelope bundle ∧ envelope.nonce = nonce := by
  simp only [vet, bind_eq_ok_iff, raiseIf_eq_ok_iff, rethrow_eq_ok_iff]
  constructor
  · rintro ⟨envelope, decoded, ⟨⟩, typed, ⟨⟩, issued, ⟨⟩, stamped, ⟨⟩, verified, ⟨⟩, searchable, ⟨⟩,
      unseen, b, payload, ⟨⟩, authority, superseded, newer, ⟨⟩, hsup, ⟨⟩, valid, hret⟩
    cases hret
    subst hsup
    exact ⟨envelope, ⟨decoded, by simpa using typed, by simpa using issued, by simpa using stamped,
      verified, searchable, unseen, payload, by simpa using authority, newer, by simpa using valid⟩, rfl⟩
  · rintro ⟨envelope, h, rfl⟩
    exact ⟨envelope, h.decoded, (), by simpa using h.typed, (), by simpa using h.issued, (),
      by simpa using h.stamped, (), h.verified, (), h.searchable, (), h.unseen, bundle, h.payload, (),
      by simpa using h.authority, false, h.newer, (), rfl, (), by simpa using h.valid, rfl⟩

/-- The in-memory installation. -/
def install (s : BundleStore rt) (bundle : WireBundle) (nonce : Value) : BundleStore rt :=
  { s with
    seenNonces := nonce :: s.seenNonces
    bundle := some bundle
    sequence := bundle.sequence }

/-- Verify and install a bundle. The mark is committed before the bundle governs anything. -/
def accept (s : BundleStore rt) (epochs : EpochStore) (faults : EpochFaults)
    (envelopeBytes : Bytes) (now : DateTime) :
    Except Exc WireBundle × BundleStore rt × EpochStore :=
  match s.vet envelopeBytes now with
  | .error e => (.error e, s, epochs)
  | .ok (bundle, nonce) =>
      match epochs.commit faults bundle.sequence with
      | (.error e, epochs') => (.error e, s, epochs')
      | (.ok (), epochs') =>
          -- the nonce is the first thing that is put on record in the store
          match nonce.hashable with
          | .error e => (.error e, s, epochs')
          | .ok () => (.ok bundle, s.install bundle nonce, epochs')

/-- The bundle in force and whether the site is running degraded. -/
def current (s : BundleStore rt) (now : DateTime) : WireBundle × Bool :=
  match s.bundle with
  | none => (s.floor, true)
  | some bundle => if bundle.notAfter.us ≤ now.us then (s.floor, true) else (bundle, false)

@[simp] theorem install_bundle (s : BundleStore rt) (b : WireBundle) (n : Value) :
    (s.install b n).bundle = some b := rfl
@[simp] theorem install_sequence (s : BundleStore rt) (b : WireBundle) (n : Value) :
    (s.install b n).sequence = b.sequence := rfl
@[simp] theorem install_seenNonces (s : BundleStore rt) (b : WireBundle) (n : Value) :
    (s.install b n).seenNonces = n :: s.seenNonces := rfl
@[simp] theorem install_floor (s : BundleStore rt) (b : WireBundle) (n : Value) :
    (s.install b n).floor = s.floor := rfl
@[simp] theorem install_trustedKey (s : BundleStore rt) (b : WireBundle) (n : Value) :
    (s.install b n).trustedKey = s.trustedKey := rfl
@[simp] theorem install_expectedIssuer (s : BundleStore rt) (b : WireBundle) (n : Value) :
    (s.install b n).expectedIssuer = s.expectedIssuer := rfl
@[simp] theorem install_siteId (s : BundleStore rt) (b : WireBundle) (n : Value) :
    (s.install b n).siteId = s.siteId := rfl

/-! ## What accepting does -/

section Accept
variable {s : BundleStore rt} {epochs : EpochStore} {faults : EpochFaults} {envelopeBytes : Bytes}
  {now : DateTime}

/-- All a call of `accept` can do. -/
inductive Accepts (s : BundleStore rt) (epochs : EpochStore) (faults : EpochFaults)
    (envelopeBytes : Bytes) (now : DateTime) :
    Except Exc WireBundle × BundleStore rt × EpochStore → Prop
  /-- The bundle was refused. -/
  | refused (e : Exc) : Accepts s epochs faults envelopeBytes now (.error e, s, epochs)
  /-- The bundle was admitted and its mark not committed. -/
  | uncommitted (envelope : Envelope) (bundle : WireBundle) (e : Exc)
      (admitted : s.Admitted envelopeBytes now envelope bundle)
      (failed : (epochs.commit faults bundle.sequence).1 = .error e) :
      Accepts s epochs faults envelopeBytes now
        (.error e, s, (epochs.commit faults bundle.sequence).2)
  /-- The bundle was admitted, its mark committed, and its nonce not put on record. -/
  | unrecorded (envelope : Envelope) (bundle : WireBundle) (e : Exc)
      (admitted : s.Admitted envelopeBytes now envelope bundle)
      (committed : (epochs.commit faults bundle.sequence).1 = .ok ())
      (unhashable : envelope.nonce.hashable = .error e) :
      Accepts s epochs faults envelopeBytes now
        (.error e, s, (epochs.commit faults bundle.sequence).2)
  /-- The bundle was admitted, its mark committed, and it was installed. -/
  | installed (envelope : Envelope) (bundle : WireBundle)
      (admitted : s.Admitted envelopeBytes now envelope bundle)
      (committed : (epochs.commit faults bundle.sequence).1 = .ok ())
      (hashable : envelope.nonce.hashable = .ok ()) :
      Accepts s epochs faults envelopeBytes now
        (.ok bundle, s.install bundle envelope.nonce, (epochs.commit faults bundle.sequence).2)

theorem accept_cases (s : BundleStore rt) (epochs : EpochStore) (faults : EpochFaults)
    (envelopeBytes : Bytes) (now : DateTime) :
    Accepts s epochs faults envelopeBytes now (s.accept epochs faults envelopeBytes now) := by
  unfold accept
  cases hvet : s.vet envelopeBytes now with
  | error e => exact .refused e
  | ok admitted =>
    obtain ⟨bundle, nonce⟩ := admitted
    obtain ⟨envelope, hadmitted, rfl⟩ := vet_ok.mp hvet
    dsimp only
    cases hcommit : epochs.commit faults bundle.sequence with
    | mk result epochs' =>
      cases result with
      | error e =>
        have hfailed : (epochs.commit faults bundle.sequence).1 = .error e := by rw [hcommit]
        have h := Accepts.uncommitted envelope bundle e hadmitted hfailed
        rwa [hcommit] at h
      | ok u =>
        have hdone : (epochs.commit faults bundle.sequence).1 = .ok () := by rw [hcommit]
        dsimp only
        cases hhash : envelope.nonce.hashable with
        | error e =>
          have h := Accepts.unrecorded envelope bundle e hadmitted hdone hhash
          rwa [hcommit] at h
        | ok u =>
          have h := Accepts.installed envelope bundle hadmitted hdone hhash
          rwa [hcommit] at h

/-- A call that returned installed what it returned. -/
theorem accept_ok {bundle : WireBundle}
    (h : (s.accept epochs faults envelopeBytes now).1 = .ok bundle) :
    ∃ envelope, s.Admitted envelopeBytes now envelope bundle ∧
      envelope.nonce.hashable = .ok () ∧ (epochs.commit faults bundle.sequence).1 = .ok () ∧
      (s.accept epochs faults envelopeBytes now).2 =
        (s.install bundle envelope.nonce, (epochs.commit faults bundle.sequence).2) := by
  generalize hr : s.accept epochs faults envelopeBytes now = r at h ⊢
  have hcases := accept_cases s epochs faults envelopeBytes now
  rw [hr] at hcases
  cases hcases with
  | refused e => cases h
  | uncommitted envelope b e admitted failed => cases h
  | unrecorded envelope b e admitted committed unhashable => cases h
  | installed envelope b admitted committed hashable =>
    cases h
    exact ⟨envelope, admitted, hashable, committed, rfl⟩

/-- A call that raised left the store as it was. -/
theorem accept_error {e : Exc} (h : (s.accept epochs faults envelopeBytes now).1 = .error e) :
    (s.accept epochs faults envelopeBytes now).2.1 = s := by
  generalize hr : s.accept epochs faults envelopeBytes now = r at h ⊢
  have hcases := accept_cases s epochs faults envelopeBytes now
  rw [hr] at hcases
  cases hcases with
  | refused e => rfl
  | uncommitted envelope b e admitted failed => rfl
  | unrecorded envelope b e admitted committed unhashable => rfl
  | installed envelope b admitted committed hashable => cases h

theorem accept_of_refused {e : Exc} (h : s.vet envelopeBytes now = .error e) :
    s.accept epochs faults envelopeBytes now = (.error e, s, epochs) := by
  rw [accept, h]

theorem accept_of_uncommitted {envelope : Envelope} {bundle : WireBundle} {e : Exc}
    (h : s.Admitted envelopeBytes now envelope bundle)
    (hcommit : (epochs.commit faults bundle.sequence).1 = .error e) :
    s.accept epochs faults envelopeBytes now =
      (.error e, s, (epochs.commit faults bundle.sequence).2) := by
  rw [accept, vet_ok.mpr ⟨envelope, h, rfl⟩]
  dsimp only
  generalize epochs.commit faults bundle.sequence = c at hcommit ⊢
  obtain ⟨result, epochs'⟩ := c
  cases hcommit
  rfl

/-- An admitted bundle whose mark is committed is installed if its nonce can be put on record. -/
theorem accept_of_committed {envelope : Envelope} {bundle : WireBundle}
    (h : s.Admitted envelopeBytes now envelope bundle)
    (hcommit : (epochs.commit faults bundle.sequence).1 = .ok ()) :
    s.accept epochs faults envelopeBytes now =
      match envelope.nonce.hashable with
      | .error e => (.error e, s, (epochs.commit faults bundle.sequence).2)
      | .ok () => (.ok bundle, s.install bundle envelope.nonce,
          (epochs.commit faults bundle.sequence).2) := by
  rw [accept, vet_ok.mpr ⟨envelope, h, rfl⟩]
  dsimp only
  generalize epochs.commit faults bundle.sequence = c at hcommit ⊢
  obtain ⟨result, epochs'⟩ := c
  cases hcommit
  rfl

theorem accept_of_admitted {envelope : Envelope} {bundle : WireBundle}
    (h : s.Admitted envelopeBytes now envelope bundle) (hhash : envelope.nonce.hashable = .ok ())
    (hcommit : (epochs.commit faults bundle.sequence).1 = .ok ()) :
    s.accept epochs faults envelopeBytes now =
      (.ok bundle, s.install bundle envelope.nonce, (epochs.commit faults bundle.sequence).2) := by
  rw [accept_of_committed h hcommit, hhash]

/-- Accepting never touches the key, the issuer, the site or the floor. -/
theorem accept_fixed : (s.accept epochs faults envelopeBytes now).2.1.trustedKey = s.trustedKey ∧
    (s.accept epochs faults envelopeBytes now).2.1.expectedIssuer = s.expectedIssuer ∧
    (s.accept epochs faults envelopeBytes now).2.1.siteId = s.siteId ∧
    (s.accept epochs faults envelopeBytes now).2.1.floor = s.floor := by
  cases hr : (s.accept epochs faults envelopeBytes now).1 with
  | error e => simp [accept_error hr]
  | ok bundle =>
    obtain ⟨envelope, -, -, -, h⟩ := accept_ok hr
    simp [h]

end Accept

/-! ## Integer sequences -/

theorem Admitted.sequence {s : BundleStore rt} {envelopeBytes : Bytes} {now : DateTime}
    {envelope : Envelope} {bundle : WireBundle} (h : s.Admitted envelopeBytes now envelope bundle)
    (hint : IntegerSequence rt envelopeBytes) {k : Int} (hk : s.sequence = .int k) :
    ∃ n, bundle.sequence = .int n ∧ k < n := by
  obtain ⟨n, hn⟩ := hint envelope bundle h.decoded h.payload
  have hnewer := h.newer
  rw [hn, hk, Value.le_int, Except.ok.injEq, decide_eq_false_iff_not, not_le] at hnewer
  exact ⟨n, hn, hnewer⟩

/-! ## What a store starts from -/

/-- What an installed floor has passed. -/
structure FloorInstalled (trustedKey : rt.PublicKey) (expectedIssuer siteId : String)
    (signedFloor : Bytes) (floorLinks : Option (List Link)) (envelope : Envelope)
    (floor : WireBundle) : Prop where
  decoded : decodeEnvelope rt signedFloor = .ok envelope
  typed : envelope.msgType = .str msgFloorConfig
  issued : envelope.issuer = .str expectedIssuer
  verified : verify rt envelope trustedKey = .ok ()
  bound : ∃ inventoryHash, decodeFloorConfig rt envelope.payload =
      .ok (.str siteId, .str inventoryHash, floor) ∧
    presentedHash rt floorLinks floor = .ok inventoryHash

theorem installFloor_ok {trustedKey : rt.PublicKey} {expectedIssuer siteId : String}
    {signedFloor : Bytes} {floorLinks : Option (List Link)} {floor : WireBundle} :
    installFloor trustedKey expectedIssuer siteId signedFloor floorLinks = .ok floor ↔
    ∃ envelope, FloorInstalled trustedKey expectedIssuer siteId signedFloor floorLinks envelope
      floor := by
  simp only [installFloor, bind_eq_ok_iff, raiseIf_eq_ok_iff, rethrow_eq_ok_iff]
  constructor
  · rintro ⟨envelope, decoded, ⟨⟩, typed, ⟨⟩, issued, ⟨⟩, verified, ⟨site, hash, b⟩, payload, ⟨⟩,
      named, actual, hactual, ⟨⟩, bound, hret⟩
    cases hret
    have hsite : site = .str siteId := by simpa using named
    have hhash : hash = .str actual := by simpa using bound
    subst hsite hhash
    exact ⟨envelope, decoded, by simpa using typed, by simpa using issued, verified, actual, payload,
      hactual⟩
  · rintro ⟨envelope, decoded, typed, issued, verified, inventoryHash, payload, hactual⟩
    exact ⟨envelope, decoded, (), by simpa using typed, (), by simpa using issued, (), verified,
      (.str siteId, .str inventoryHash, floor), payload, (), by simp, inventoryHash, hactual, (),
      by simp, rfl⟩

theorem init_ok {trustedKey : rt.PublicKey} {expectedIssuer siteId : String} {signedFloor : Bytes}
    {floorLinks : Option (List Link)} {epochs : EpochStore} {readFault : Option Exc}
    {s : BundleStore rt} :
    init trustedKey expectedIssuer siteId signedFloor floorLinks epochs readFault = .ok s ↔
    ∃ floor sequence,
      installFloor trustedKey expectedIssuer siteId signedFloor floorLinks = .ok floor ∧
      readFault = none ∧ epochs.read = .ok sequence ∧
      s = ⟨trustedKey, expectedIssuer, siteId, floor, none, sequence, []⟩ := by
  simp only [init, bind_eq_ok_iff, rethrow_eq_ok_iff]
  constructor
  · rintro ⟨floor, hfloor, sequence, hread, hret⟩
    cases hret
    cases readFault with
    | some e => cases hread
    | none => exact ⟨floor, sequence, hfloor, rfl, hread, rfl⟩
  · rintro ⟨floor, sequence, hfloor, rfl, hread, rfl⟩
    exact ⟨floor, hfloor, sequence, hread, rfl⟩

/-! ## What governs -/

theorem current_not_degraded {s : BundleStore rt} {now : DateTime} {bundle : WireBundle} :
    s.current now = (bundle, false) ↔ s.bundle = some bundle ∧ now.us < bundle.notAfter.us := by
  unfold current
  cases s.bundle with
  | none => simp
  | some b =>
    dsimp only
    split_ifs with h
    · simp only [Prod.mk.injEq, Bool.true_eq_false, and_false, Option.some.injEq, false_iff, not_and,
        not_lt]
      rintro rfl
      exact h
    · simp only [Prod.mk.injEq, and_true, Option.some.injEq]
      constructor
      · rintro rfl
        exact ⟨rfl, not_le.mp h⟩
      · exact And.left

theorem current_degraded {s : BundleStore rt} {now : DateTime} {bundle : WireBundle} :
    s.current now = (bundle, true) ↔ bundle = s.floor ∧
      ∀ b, s.bundle = some b → b.notAfter.us ≤ now.us := by
  unfold current
  cases s.bundle with
  | none => simp [eq_comm]
  | some b =>
    dsimp only
    split_ifs with h
    · simp [h, eq_comm]
    · simpa using fun _ => not_le.mp h

end BundleStore

end Pilotfish
