import Pilotfish.Cbor
import Pilotfish.DateTime
import Pilotfish.Sha256

/-!
# The packages underneath

Ed25519, SHA-256 and CBOR come from packages the program imports. They are parameters here,
with what their documentation promises as a structure of laws. Encoding raises on objects it has
no form for; what is made of scalars and lists always has one. What the program's own types
look like on the wire is the class `OnWire`.

Results:
1. `dumps_of_plain`, `hexdigest_eq_ok_iff`: what is encoded, and its digest.
2. `CollisionFree.digest_injective`: equal digests without a collision are of equal values.
3. `OnWire.ofValue?_value`: a value of a declared type is recognised on the wire.
4. `lawful_standIn`: the laws hold of SHA-256 and CBOR as they are, with keyed digests in place
   of signatures.
-/

namespace Pilotfish
open Python

/-- The imported functions. -/
structure Runtime where
  PrivateKey : Type
  PublicKey : Type
  publicKey : PrivateKey → PublicKey
  sign : PrivateKey → Bytes → Bytes
  /-- Whether a signature is the key's own for a message. -/
  verifies : PublicKey → Bytes → Bytes → Bool
  sha256 : Bytes → Bytes
  dumps : Value → Except Exc Bytes
  dumps_plain : ∀ v, v.plain = true → ∃ data, dumps v = .ok data
  loads : Bytes → Except Exc Value

namespace Runtime

variable (rt : Runtime)

/-- Encoding the value returns. -/
def Encodes (v : Value) : Prop := ∃ data, rt.dumps v = .ok data

/-- What a value is encoded as, if it is. -/
def encoding (v : Value) : Bytes := (rt.dumps v).toOption.getD []

/-- What the packages promise: a genuine signature verifies, a digest has 32 bytes, decoding
inverts encoding on values made of scalars and lists, which are never encoded as nothing, a list is
encoded when its elements are, and a text with a lone surrogate is not. -/
structure Lawful (rt : Runtime) : Prop where
  verifies_sign : ∀ key message, rt.verifies (rt.publicKey key) (rt.sign key message) message
  length_sha256 : ∀ data, (rt.sha256 data).length = 32
  loads_dumps : ∀ v : Value, v.plain → rt.loads (rt.encoding v) = .ok v
  dumps_ne_nil : ∀ v : Value, v.plain → rt.encoding v ≠ []
  encodes_list : ∀ xs, rt.Encodes (.list xs) ↔ ∀ x ∈ xs, rt.Encodes x
  surrogates : ∀ codes, (∃ c ∈ codes, ¬c.isValidChar) → ¬rt.Encodes (Value.surrogates codes)

/-- No two of these values have one digest. -/
def CollisionFree (rt : Runtime) (vs : List Value) : Prop :=
  ∀ v ∈ vs, ∀ w ∈ vs, rt.sha256 (rt.encoding v) = rt.sha256 (rt.encoding w) → v = w

/-- `hashlib.sha256(dumps(v)).hexdigest()`, of what is encoded. -/
def digest (v : Value) : String := hex (rt.sha256 (rt.encoding v))

/-- The same of any value. -/
def hexdigest (v : Value) : Except Exc String := do
  let data ← rt.dumps v
  return hex (rt.sha256 data)

/-- `loads(v)`: the decoder wraps its argument in a byte stream, and `None` is an empty one. -/
def loadsValue : Value → Except Exc Value
  | .bytes b => rt.loads b
  | .null => rt.loads []
  | v => Value.typeError ("a bytes-like object is required, not '" ++ v.typeName ++ "'")

variable {rt}

theorem dumps_eq {v : Value} (h : rt.Encodes v) : rt.dumps v = .ok (rt.encoding v) := by
  obtain ⟨data, hdata⟩ := h
  rw [encoding, hdata]
  rfl

theorem dumps_of_plain {v : Value} (hv : v.plain = true) : rt.dumps v = .ok (rt.encoding v) :=
  dumps_eq (rt.dumps_plain v hv)

theorem hexdigest_eq_ok_iff {v : Value} {h : String} :
    rt.hexdigest v = .ok h ↔ rt.Encodes v ∧ rt.digest v = h := by
  unfold hexdigest Encodes digest encoding
  cases rt.dumps v with
  | error e => exact iff_of_false (fun hr => nomatch hr) fun ⟨⟨_, hd⟩, _⟩ => nomatch hd
  | ok data => exact ⟨fun hr => ⟨⟨data, rfl⟩, Except.ok.inj hr⟩, fun hd => congrArg Except.ok hd.2⟩

/-- A text is encoded when it is made of characters. -/
theorem Lawful.encodes_text (laws : rt.Lawful) {text : Text} :
    rt.Encodes text.value ↔ text.Encodable := by
  cases text with
  | characters s => exact iff_of_true (rt.dumps_plain _ rfl) ⟨s, rfl⟩
  | surrogates codes lone => exact iff_of_false (laws.surrogates codes lone) fun ⟨_, h⟩ => nomatch h

theorem CollisionFree.digest_injective {vs : List Value} (free : rt.CollisionFree vs) {v w : Value}
    (hv : v ∈ vs) (hw : w ∈ vs) (h : rt.digest v = rt.digest w) : v = w :=
  free v hv w hw (hex_injective h)

end Runtime

/-! ## Declared types on the wire -/

/-- A type of the program's fields: its values as objects, and which objects are its values. -/
class OnWire (α : Type) where
  value : α → Value
  ofValue? : Value → Option α
  ofValue?_eq_some : ∀ {v a}, ofValue? v = some a ↔ v = value a

namespace OnWire

@[simp] theorem ofValue?_value {α : Type} [OnWire α] (a : α) : ofValue? (value a) = some a :=
  ofValue?_eq_some.mpr rfl

/-- A field that is not checked holds any object. -/
instance : OnWire Value := ⟨id, some, by simp⟩

instance : OnWire String where
  value := .str
  ofValue?
    | .str s => some s
    | _ => none
  ofValue?_eq_some := by intro v s; cases v <;> simp

instance : OnWire Bool where
  value := .bool
  ofValue?
    | .bool b => some b
    | _ => none
  ofValue?_eq_some := by intro v b; cases v <;> simp

instance : OnWire Int where
  value := .int
  ofValue?
    | .int n => some n
    | _ => none
  ofValue?_eq_some := by intro v n; cases v <;> simp

@[simp] theorem value_self (v : Value) : (value v : Value) = v := rfl
@[simp] theorem value_string (s : String) : value s = .str s := rfl
@[simp] theorem value_bool (b : Bool) : value b = .bool b := rfl
@[simp] theorem value_int (n : Int) : value n = .int n := rfl

/-- A type whose values are scalars and lists. -/
class Plain (α : Type) [OnWire α] : Prop where
  plain : ∀ a : α, (value a).plain = true

instance : Plain String := ⟨fun _ => rfl⟩
instance : Plain Bool := ⟨fun _ => rfl⟩
instance : Plain Int := ⟨fun _ => rfl⟩

attribute [simp] Plain.plain

end OnWire

/-! ## An instance -/

/-- SHA-256 and CBOR, and for Ed25519 a digest under the key: 64 bytes that another key or
another message does not give. -/
def standIn : Runtime where
  PrivateKey := Bytes
  PublicKey := Bytes
  publicKey := id
  sign key message := Sha256.digest (key ++ Sha256.digest message) ++ Sha256.digest message
  verifies key signature message :=
    signature == Sha256.digest (key ++ Sha256.digest message) ++ Sha256.digest message
  sha256 := Sha256.digest
  dumps := Cbor.dumps
  dumps_plain v hv := ⟨_, Cbor.dumps_of_formed (Cbor.formed_of_plain v hv)⟩
  loads := Cbor.loads

/-- It encodes what has a form as CBOR. -/
theorem encoding_standIn {v : Value} (hv : Cbor.formed v = true) :
    standIn.encoding v = Cbor.encode v := by
  show (Cbor.dumps v).toOption.getD [] = _
  rw [Cbor.dumps_of_formed hv]
  rfl

theorem lawful_standIn : standIn.Lawful where
  verifies_sign _ _ := beq_self_eq_true _
  length_sha256 := Sha256.length_digest
  loads_dumps v hv := by
    rw [encoding_standIn (Cbor.formed_of_plain v hv)]
    exact Cbor.loads_encode v hv
  dumps_ne_nil v hv := by
    rw [encoding_standIn (Cbor.formed_of_plain v hv)]
    exact Cbor.encode_ne_nil hv
  encodes_list := Cbor.dumps_list_iff
  surrogates codes _ h := by
    have hformed : Cbor.formed (Value.surrogates codes) = true := Cbor.dumps_iff.mp h
    cases hformed

end Pilotfish
