import Pilotfish.Messages

/-!
# The signed envelope

Security sits in the message, not the channel. Of the six fields of an envelope only the
instant is converted when it is decoded; the others are whatever objects arrived.

Results:
1. `verify_ok`: what it takes to verify.
2. `decodeEnvelope_encodeEnvelope`: what arrives of an envelope.
3. `verify_sign`: an envelope that was signed verifies under the signer's key, before the wire
   and after it.
-/

namespace Pilotfish
open Python

def nonceBytes : Nat := 16

structure Envelope where
  msgType : Value
  issuer : Value
  issuedAt : DateTime
  nonce : Value
  payload : Value
  signature : Value

/-- The envelope did not verify under the given key. -/
def signatureInvalid (envelope : Envelope) : Exc :=
  ⟨.user "SignatureInvalid",
    "envelope " ++ envelope.msgType.text ++ " from " ++ envelope.issuer.text ++ " did not verify"⟩

/-- `except SignatureInvalid`. -/
def Exc.isSignatureInvalid (e : Exc) : Bool := e.cls = .user "SignatureInvalid"

/-- What the key is handed for a signature that is not a byte string. -/
def notABuffer (v : Value) : Exc :=
  ⟨.TypeError, "Cannot convert \"<class '" ++ v.typeName ++ "'>\" instance to a buffer." ++
    (match v with
      | .str _ => "\nDid you mean to pass a bytestring instead?"
      | _ => "")⟩

/-- What the signature covers. -/
def Envelope.covered (envelope : Envelope) : Value :=
  .list [envelope.msgType, envelope.issuer, ts envelope.issuedAt, envelope.nonce, envelope.payload]

variable (rt : Runtime)

/-- Canonical CBOR of the array the signature covers. -/
def signingInput (msgType issuer : Value) (issuedAt : DateTime) (nonce payload : Value) :
    Except Exc Bytes := do
  let length ← nonce.len
  if length ≠ nonceBytes then
    .error ⟨.ValueError,
      "nonce must be exactly 16 bytes, got " ++ String.ofList (decimal length)⟩
  else rt.dumps (.list [msgType, issuer, ts issuedAt, nonce, payload])

def sign (msgType issuer : String) (issuedAt : DateTime) (nonce payload : Bytes)
    (privateKey : rt.PrivateKey) : Except Exc Envelope := do
  let material ← signingInput rt (.str msgType) (.str issuer) issuedAt (.bytes nonce)
    (.bytes payload)
  return {
    msgType := .str msgType
    issuer := .str issuer
    issuedAt := issuedAt
    nonce := .bytes nonce
    payload := .bytes payload
    signature := .bytes (rt.sign privateKey material) }

/-- Raises `SignatureInvalid`. -/
def verify (envelope : Envelope) (publicKey : rt.PublicKey) : Except Exc Unit := do
  let material ← signingInput rt envelope.msgType envelope.issuer envelope.issuedAt envelope.nonce
    envelope.payload
  match envelope.signature with
  | .bytes signature =>
      if rt.verifies publicKey signature material then return ()
      else .error (signatureInvalid envelope)
  | v => .error (notABuffer v)

def Envelope.fields (envelope : Envelope) : Value :=
  .list [envelope.msgType, envelope.issuer, ts envelope.issuedAt, envelope.nonce, envelope.payload,
    envelope.signature]

def encodeEnvelope (envelope : Envelope) : Bytes := rt.encoding envelope.fields

def decodeEnvelope (data : Bytes) : Except Exc Envelope := do
  match ← rt.loads data with
  | .list [msgType, issuer, issuedAt, nonce, payload, signature] => return {
      msgType := msgType
      issuer := issuer
      issuedAt := ← DateTime.fromtimestamp issuedAt
      nonce := nonce
      payload := payload
      signature := signature }
  | _ => .error ⟨.ValueError, "malformed envelope"⟩

/-! ## Signing and verifying -/

variable {rt}

theorem signingInput_bytes {msgType issuer payload : Value} {issuedAt : DateTime} {nonce : Bytes}
    (h : nonce.length = nonceBytes) :
    signingInput rt msgType issuer issuedAt (.bytes nonce) payload =
      rt.dumps (.list [msgType, issuer, ts issuedAt, .bytes nonce, payload]) := by
  show (if nonce.length ≠ nonceBytes then _ else _) = _
  rw [if_neg (not_not_intro h)]

/-- What the program signs is encoded. -/
theorem signingInput_own {msgType issuer : String} {issuedAt : DateTime} {nonce payload : Bytes}
    (h : nonce.length = nonceBytes) :
    signingInput rt (.str msgType) (.str issuer) issuedAt (.bytes nonce) (.bytes payload) =
      .ok (rt.encoding (.list [.str msgType, .str issuer, ts issuedAt, .bytes nonce,
        .bytes payload])) :=
  (signingInput_bytes h).trans (Runtime.dumps_of_plain (by simp [ts]))

/-- A verified envelope carries a byte string the key answers for. -/
theorem verify_ok {envelope : Envelope} {publicKey : rt.PublicKey}
    (h : verify rt envelope publicKey = .ok ()) :
    ∃ signature material, envelope.signature = .bytes signature ∧
      signingInput rt envelope.msgType envelope.issuer envelope.issuedAt envelope.nonce
        envelope.payload = .ok material ∧
      rt.verifies publicKey signature material = true := by
  unfold verify at h
  cases hm : signingInput rt envelope.msgType envelope.issuer envelope.issuedAt envelope.nonce
    envelope.payload with
  | error e => rw [hm] at h; cases h
  | ok material =>
    rw [hm] at h
    cases hs : envelope.signature with
    | bytes signature =>
      rw [hs] at h
      by_cases hv : rt.verifies publicKey signature material = true
      · exact ⟨signature, material, rfl, rfl, hv⟩
      · simp only [bind, Except.bind, hv] at h
        cases h
    | _ => rw [hs] at h; cases h

/-- The envelope that signing builds. -/
def signed (rt : Runtime) (msgType issuer : String) (issuedAt : DateTime) (nonce payload : Bytes)
    (privateKey : rt.PrivateKey) : Envelope where
  msgType := .str msgType
  issuer := .str issuer
  issuedAt := issuedAt
  nonce := .bytes nonce
  payload := .bytes payload
  signature := .bytes (rt.sign privateKey (rt.encoding
    (.list [.str msgType, .str issuer, ts issuedAt, .bytes nonce, .bytes payload])))

section Signed
variable {msgType issuer : String} {issuedAt : DateTime} {nonce payload : Bytes}
  {privateKey : rt.PrivateKey}

theorem sign_ok (h : nonce.length = nonceBytes) :
    sign rt msgType issuer issuedAt nonce payload privateKey =
      .ok (signed rt msgType issuer issuedAt nonce payload privateKey) := by
  rw [sign, signingInput_own h]
  rfl

/-- Only under a nonce of the right length is anything signed. -/
theorem sign_eq_ok {envelope : Envelope} :
    sign rt msgType issuer issuedAt nonce payload privateKey = .ok envelope ↔
    nonce.length = nonceBytes ∧
      envelope = signed rt msgType issuer issuedAt nonce payload privateKey := by
  by_cases h : nonce.length = nonceBytes
  · simp only [sign_ok h, Except.ok.injEq, h, true_and, eq_comm]
  · have hinput : ∃ e,
        signingInput rt (.str msgType) (.str issuer) issuedAt (.bytes nonce) (.bytes payload) =
          .error e := by
      show ∃ e, (if nonce.length ≠ nonceBytes then _ else _) = _
      rw [if_pos h]
      exact ⟨_, rfl⟩
    obtain ⟨e, he⟩ := hinput
    simp [sign, he, h, bind, Except.bind]

theorem plain_signed : (signed rt msgType issuer issuedAt nonce payload privateKey).fields.plain =
    true := by
  simp [signed, Envelope.fields]

/-- What arrives is the envelope with its instant cut to the whole second. -/
theorem decodeEnvelope_of_loads {envelope : Envelope} {data : Bytes}
    (hload : rt.loads data = .ok envelope.fields) :
    decodeEnvelope rt data = envelope.issuedAt.cut.map fun t => { envelope with issuedAt := t } := by
  rw [decodeEnvelope, hload]
  show (do
    let t ← envelope.issuedAt.cut
    return { envelope with issuedAt := t }) = _
  cases envelope.issuedAt.cut <;> rfl

variable (laws : rt.Lawful)
include laws

theorem decodeEnvelope_encodeEnvelope {envelope : Envelope}
    (hplain : envelope.fields.plain = true) :
    decodeEnvelope rt (encodeEnvelope rt envelope) =
      envelope.issuedAt.cut.map fun t => { envelope with issuedAt := t } :=
  decodeEnvelope_of_loads (laws.loads_dumps _ hplain)

theorem decodeEnvelope_signed {t : DateTime} (ht : issuedAt.cut = .ok t) :
    decodeEnvelope rt (encodeEnvelope rt
      (signed rt msgType issuer issuedAt nonce payload privateKey)) =
      .ok { signed rt msgType issuer issuedAt nonce payload privateKey with issuedAt := t } := by
  rw [decodeEnvelope_encodeEnvelope laws plain_signed]
  show issuedAt.cut.map _ = _
  rw [ht]
  rfl

/-- An envelope verifies whose signature was made over what is signed of it. -/
theorem verify_of_signed {envelope : Envelope} {material : Bytes}
    (hinput : signingInput rt envelope.msgType envelope.issuer envelope.issuedAt envelope.nonce
      envelope.payload = .ok material)
    (hsignature : envelope.signature = .bytes (rt.sign privateKey material)) :
    verify rt envelope (rt.publicKey privateKey) = .ok () := by
  rw [verify, hinput, hsignature]
  exact if_pos (laws.verifies_sign privateKey material)

/-- A signed envelope verifies, also with its instant replaced by one of the same second. -/
theorem verify_sign (h : nonce.length = nonceBytes) {t : DateTime}
    (ht : t.seconds = issuedAt.seconds) :
    verify rt { signed rt msgType issuer issuedAt nonce payload privateKey with issuedAt := t }
      (rt.publicKey privateKey) = .ok () := by
  have hts : ts t = ts issuedAt := by rw [ts, ht, ts]
  have hinput :
    signingInput rt (.str msgType) (.str issuer) t (.bytes nonce) (.bytes payload) = _ :=
    signingInput_own h
  rw [hts] at hinput
  exact verify_of_signed laws hinput rfl

end Signed

/-- The frozen vector of the protocol. -/
example : (signingInput standIn (.str "POLICY_BUNDLE") (.str "authority-1")
    ⟨1787918400 * 1000000, by decide, by decide⟩
    (.bytes [0, 1, 2, 3, 4, 5, 6, 7, 8, 9, 10, 11, 12, 13, 14, 15])
    (.bytes "pilotfish test vector payload".toByteArray.data.toList)).map hex =
      .ok ("856d504f4c4943595f42554e444c456b617574686f726974792d311a6a91784050000102030405060708" ++
        "090a0b0c0d0e0f581d70696c6f7466697368207465737420766563746f72207061796c6f6164") := by
  decide +kernel

end Pilotfish
