import Pilotfish.Publication

/-!
# What a signature covers on the wire

An envelope is verified by what is encoded again of its fields. All but the instant are the objects
that arrived; of the instant only the second is left.

Results:
1. `accepted_of_second`: a stamp may be exchanged for any other of the same second.
2. `accepted_arrays_iff`: when two accepted arrays with one signature are the same.
-/

namespace Pilotfish
open Python

variable {rt : Runtime}

/-- An array of six elements, as it is loaded. -/
@[ext] structure WireEnvelope where
  msgType : Value
  issuer : Value
  issuedAt : Value
  nonce : Value
  payload : Value
  signature : Value

def WireEnvelope.array (w : WireEnvelope) : Value :=
  .list [w.msgType, w.issuer, w.issuedAt, w.nonce, w.payload, w.signature]

/-- The array arrives, decodes to an envelope, and that verifies. -/
structure WireEnvelope.Accepted (w : WireEnvelope) (publicKey : rt.PublicKey)
    (envelope : Envelope) : Prop where
  decoded : ∃ data, rt.loads data = .ok w.array ∧ decodeEnvelope rt data = .ok envelope
  verified : verify rt envelope publicKey = .ok ()

/-! ## What is decoded and verified -/

theorem decodeEnvelope_array {w : WireEnvelope} {data : Bytes} (h : rt.loads data = .ok w.array)
    {envelope : Envelope} : decodeEnvelope rt data = .ok envelope ↔
    ∃ t, DateTime.fromtimestamp w.issuedAt = .ok t ∧
      envelope = ⟨w.msgType, w.issuer, t, w.nonce, w.payload, w.signature⟩ := by
  rw [decodeEnvelope, h]
  show (DateTime.fromtimestamp w.issuedAt >>= fun t => _) = _ ↔ _
  rw [bind_eq_ok_iff]
  refine exists_congr ?_
  intro t
  refine and_congr_right ?_
  intro _
  constructor
  · intro h
    cases h
    rfl
  · intro h
    rw [h]
    rfl

theorem verify_covered {envelope : Envelope} {publicKey : rt.PublicKey}
    (h : verify rt envelope publicKey = .ok ()) : ∃ signature,
      envelope.signature = .bytes signature ∧
      rt.verifies publicKey signature (rt.encoding envelope.covered) = true := by
  obtain ⟨signature, material, hsignature, hinput, hverifies⟩ := verify_ok h
  obtain ⟨length, -, hinput⟩ := bind_eq_ok_iff.mp hinput
  split_ifs at hinput
  have hmaterial := Runtime.dumps_eq ⟨material, hinput⟩
  rw [hinput, Except.ok.injEq] at hmaterial
  exact ⟨signature, hsignature, hmaterial ▸ hverifies⟩

/-- Verifying looks at an instant by its second only. -/
theorem verify_of_second {envelope : Envelope} {publicKey : rt.PublicKey} {t : DateTime}
    (ht : t.seconds = envelope.issuedAt.seconds) (h : verify rt envelope publicKey = .ok ()) :
    verify rt { envelope with issuedAt := t } publicKey = .ok () := by
  have hinput : signingInput rt envelope.msgType envelope.issuer t envelope.nonce envelope.payload =
      signingInput rt envelope.msgType envelope.issuer envelope.issuedAt envelope.nonce
        envelope.payload := by
    rw [signingInput, signingInput, ts, ts, ht]
  unfold verify at h ⊢
  rw [hinput]
  exact h

namespace WireEnvelope

/-! ## Arrays that are accepted -/

section Accepted
variable {w w' : WireEnvelope} {publicKey : rt.PublicKey} {e e' : Envelope}

/-- The envelope is the array with the instant of its stamp. -/
theorem Accepted.fields (h : w.Accepted publicKey e) : ∃ t,
    DateTime.fromtimestamp w.issuedAt = .ok t ∧
    e = ⟨w.msgType, w.issuer, t, w.nonce, w.payload, w.signature⟩ := by
  obtain ⟨data, hload, hdecode⟩ := h.decoded
  exact (decodeEnvelope_array hload).mp hdecode

/-- A stamp may be exchanged for any other of the same second. -/
theorem accepted_of_second (laws : rt.Lawful) (h : w.Accepted publicKey e) {stamp : Value}
    {t : DateTime} (hstamp : DateTime.fromtimestamp stamp = .ok t)
    (ht : t.seconds = e.issuedAt.seconds)
    (hplain : ({ w with issuedAt := stamp } : WireEnvelope).array.plain = true) :
    ({ w with issuedAt := stamp } : WireEnvelope).Accepted publicKey { e with issuedAt := t } := by
  obtain ⟨t₀, -, rfl⟩ := h.fields
  have hload := laws.loads_dumps _ hplain
  exact ⟨⟨_, hload, (decodeEnvelope_array hload).mpr ⟨t, hstamp, rfl⟩⟩,
    verify_of_second ht h.verified⟩

/-- Two accepted arrays under one signature differ in their stamps at most, and there not in the
second. -/
theorem Accepted.agree (h : w.Accepted publicKey e) (h' : w'.Accepted publicKey e')
    (hsignature : w.signature = w'.signature)
    (binds : ∀ signature, rt.verifies publicKey signature (rt.encoding e.covered) = true →
      rt.verifies publicKey signature (rt.encoding e'.covered) = true →
      rt.encoding e.covered = rt.encoding e'.covered)
    (injective : rt.encoding e.covered = rt.encoding e'.covered → e.covered = e'.covered) :
    w' = { w with issuedAt := w'.issuedAt } ∧ e.issuedAt.seconds = e'.issuedAt.seconds := by
  obtain ⟨t, -, rfl⟩ := h.fields
  obtain ⟨t', -, rfl⟩ := h'.fields
  obtain ⟨signature, hs, hverifies⟩ := verify_covered h.verified
  obtain ⟨signature', hs', hverifies'⟩ := verify_covered h'.verified
  have hsame : signature' = signature := by
    have heq : Value.bytes signature = .bytes signature' := by
      rw [← hs, ← hs']
      exact hsignature
    exact (Value.bytes.inj heq).symm
  rw [hsame] at hverifies'
  have hcovered := injective (binds signature hverifies hverifies')
  simp only [Envelope.covered, ts, Value.list.injEq, List.cons.injEq, Value.int.injEq,
    and_true] at hcovered
  obtain ⟨htype, hissuer, hsecond, hnonce, hpayload⟩ := hcovered
  refine ⟨?_, hsecond⟩
  ext1
  · exact htype.symm
  · exact hissuer.symm
  · rfl
  · exact hnonce.symm
  · exact hpayload.symm
  · exact hsignature.symm

end Accepted

end WireEnvelope

/-- An integer is the second it names. -/
theorem eq_of_seconds {n m : Int} {s t : DateTime} (hs : DateTime.fromtimestamp (.int n) = .ok s)
    (ht : DateTime.fromtimestamp (.int m) = .ok t) (h : s.seconds = t.seconds) : n = m := by
  rw [← DateTime.seconds_ofSeconds hs, h, DateTime.seconds_ofSeconds ht]

/-- Two arrays that are accepted under one signature are the same exactly when their stamps are,
and two integers always are. -/
theorem accepted_arrays_iff {w w' : WireEnvelope} {publicKey : rt.PublicKey} {e e' : Envelope}
    (h : w.Accepted publicKey e) (h' : w'.Accepted publicKey e')
    (hsignature : w.signature = w'.signature)
    (binds : ∀ signature, rt.verifies publicKey signature (rt.encoding e.covered) = true →
      rt.verifies publicKey signature (rt.encoding e'.covered) = true →
      rt.encoding e.covered = rt.encoding e'.covered)
    (injective : rt.encoding e.covered = rt.encoding e'.covered → e.covered = e'.covered) :
    (w = w' ↔ w.issuedAt = w'.issuedAt) ∧
      (∀ n m, w.issuedAt = .int n → w'.issuedAt = .int m → w = w') := by
  obtain ⟨hrest, hsecond⟩ := h.agree h' hsignature binds injective
  have hsame : w.issuedAt = w'.issuedAt → w = w' := by
    intro hstamp
    rw [hrest, ← hstamp]
  refine ⟨⟨congrArg WireEnvelope.issuedAt, hsame⟩, ?_⟩
  intro n m hn hm
  obtain ⟨t, ht, rfl⟩ := h.fields
  obtain ⟨t', ht', rfl⟩ := h'.fields
  rw [hn] at ht
  rw [hm] at ht'
  refine hsame ?_
  rw [hn, hm, eq_of_seconds ht ht' hsecond]

/-! ## A stamp exchanged -/

namespace Sample

/-- The published bundle as an array, under another stamp. -/
def stamped (stamp : Value) : WireEnvelope where
  msgType := .str msgPolicyBundle
  issuer := .str "authority-1"
  issuedAt := stamp
  nonce := .bytes (List.replicate 16 1)
  payload := .bytes (encodeBundle standIn (bundle 1))
  signature := (signed standIn msgPolicyBundle "authority-1" (clock 0) (List.replicate 16 1)
    (encodeBundle standIn (bundle 1)) signer.key).signature

/-- It is accepted under every stamp of that second. -/
theorem accepted_stamped {stamp : Value} {t : DateTime}
    (hstamp : DateTime.fromtimestamp stamp = .ok t) (ht : t.seconds = (clock 0).seconds)
    (hplain : stamp.plain = true) :
    (stamped stamp).Accepted (standIn.publicKey signer.key)
      { signed standIn msgPolicyBundle "authority-1" (clock 0) (List.replicate 16 1)
        (encodeBundle standIn (bundle 1)) signer.key with issuedAt := t } := by
  have hload : standIn.loads (standIn.encoding (stamped stamp).array) =
      .ok (stamped stamp).array := by
    refine lawful_standIn.loads_dumps _ ?_
    simp [WireEnvelope.array, stamped, signed, hplain]
  exact ⟨⟨_, hload, (decodeEnvelope_array hload).mpr ⟨t, hstamp, rfl⟩⟩,
    verify_sign lawful_standIn List.length_replicate ht⟩

/-- Noon as the integer that is sent, and half a second later as a float. -/
def noon : Value := .int 1787918400
def noonHalf : Value := .float (.fin (3575836801 / 2))

theorem fromtimestamp_noon : DateTime.fromtimestamp noon = .ok (clock 0) :=
  DateTime.fromtimestamp_int.mpr rfl

theorem fromtimestamp_noonHalf : DateTime.fromtimestamp noonHalf = .ok afterNoon := by
  decide +kernel

theorem covered_afterNoon (e : Envelope) : Envelope.covered { e with issuedAt := clock 0 } =
    Envelope.covered { e with issuedAt := afterNoon } := by
  simp only [Envelope.covered, ts, seconds_afterNoon]

end Sample

/-- A signed bundle stays accepted when its stamp is exchanged for a later one. -/
theorem stamp_not_covered : ∃ (w w' : WireEnvelope) (e e' : Envelope),
    w.Accepted (standIn.publicKey Sample.signer.key) e ∧
    w'.Accepted (standIn.publicKey Sample.signer.key) e' ∧ w.signature = w'.signature ∧
    e.covered = e'.covered ∧ w.issuedAt.eq w'.issuedAt = false ∧ w ≠ w' := by
  refine ⟨_, _, _, _, Sample.accepted_stamped Sample.fromtimestamp_noon rfl rfl,
    Sample.accepted_stamped Sample.fromtimestamp_noonHalf Sample.seconds_afterNoon rfl, rfl,
    Sample.covered_afterNoon _, by decide +kernel, ?_⟩
  intro heq
  have hstamp : Sample.noon = Sample.noonHalf := congrArg WireEnvelope.issuedAt heq
  cases hstamp

/-- The two arrays are told apart by their stamps. -/
theorem accepted_arrays_sample : Sample.stamped Sample.noon ≠ Sample.stamped Sample.noonHalf := by
  have hcovered := Sample.covered_afterNoon (signed standIn msgPolicyBundle "authority-1"
    (Sample.clock 0) (List.replicate 16 1) (encodeBundle standIn (Sample.bundle 1))
    Sample.signer.key)
  have hiff := (accepted_arrays_iff (Sample.accepted_stamped Sample.fromtimestamp_noon rfl rfl)
    (Sample.accepted_stamped Sample.fromtimestamp_noonHalf Sample.seconds_afterNoon rfl) rfl
    (fun _ _ _ => congrArg standIn.encoding hcovered) (fun _ => hcovered)).1
  intro heq
  have hstamp : Sample.noon = Sample.noonHalf := hiff.mp heq
  cases hstamp

end Pilotfish
