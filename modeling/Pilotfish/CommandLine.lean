import Pilotfish.Effect
import Pilotfish.PolicyFile
import Pilotfish.WireForm

/-!
# The command line of the authority

`keygen` writes a key pair, `sign-bundle` loads a policy file and writes what it signs, and
`verify-bundle` describes what verifies under a public key. The three share nothing but files. The
arguments come parsed, and the clocks are read where a command reads them.

Results:
1. `happenInvocations_keeps`: commands change no file but those they are told to write.
2. `signed_is_described`: what was signed is described under the public key, whatever commands run
   between, with the hash it was signed with.
-/

namespace Pilotfish
open Python

/-- What the commands take from packages: a parser, and keys as bytes. -/
structure Platform (rt : Runtime) where
  jsonLoads : String → Except Exc Value
  privateBytes : rt.PrivateKey → Bytes
  fromPrivateBytes : Bytes → Except Exc rt.PrivateKey
  publicBytes : rt.PublicKey → Bytes
  fromPublicBytes : Bytes → Except Exc rt.PublicKey

/-- Raw keys are read back. -/
structure Platform.Lawful {rt : Runtime} (platform : Platform rt) : Prop where
  private_readBack : ∀ key, platform.fromPrivateBytes (platform.privateBytes key) = .ok key
  public_readBack : ∀ key, platform.fromPublicBytes (platform.publicBytes key) = .ok key

/-- What a command works on. -/
structure Console where
  files : String → Option Bytes
  stdout : List String := []
  stderr : List String := []

abbrev Command := Effect Exc Console

/-! ## Files and output -/

def noSuchFile (path : String) : Exc :=
  ⟨.user "FileNotFoundError", "[Errno 2] No such file or directory: " ++ (Value.str path).quoted⟩

def readBytes (path : String) : Command Bytes := fun s =>
  ((s.files path).elim (.error (noSuchFile path)) .ok, s)

def writeBytes (path : String) (data : Bytes) : Command Unit :=
  Effect.update fun s => { s with files := Function.update s.files path (some data) }

/-- A carriage return is read as a line end, with the newline after it if there is one. -/
def universalNewlines : List Char → List Char
  | [] => []
  | '\r' :: '\n' :: cs => '\n' :: universalNewlines cs
  | '\r' :: cs => '\n' :: universalNewlines cs
  | c :: cs => c :: universalNewlines cs

/-- A text as it is read back. -/
def readBack (text : String) : String := String.ofList (universalNewlines text.toList)

def encodeText (text : String) : Bytes := text.toByteArray.data.toList

def decodeText (data : Bytes) : Except Exc String :=
  (String.fromUTF8? ⟨data.toArray⟩).elim
    (.error ⟨.user "UnicodeDecodeError", "'utf-8' codec can't decode bytes"⟩)
    fun text => .ok (readBack text)

def readText (path : String) : Command String := do
  let data ← readBytes path
  Effect.lift (decodeText data)

def writeText (path text : String) : Command Unit := writeBytes path (encodeText text)

def print (line : String) : Command Unit :=
  Effect.update fun s => { s with stdout := s.stdout ++ [line] }

def printError (line : String) : Command Unit :=
  Effect.update fun s => { s with stderr := s.stderr ++ [line] }

/-- A line that shows some objects. -/
def printShowing (shown : List Value) (line : String) : Command Unit := do
  Effect.lift (raiseIf (!shown.all Value.printable) Value.digitsLimit)
  print line

/-- `', '.join(ids)`. -/
def joinIds (ids : List Value) : Except Exc String := do
  let texts ← ids.zipIdx.mapM fun (v, i) =>
    match v with
    | .str s => Except.ok s
    | v => Value.typeError ("sequence item " ++ String.ofList (decimal i) ++
        ": expected str instance, " ++ v.typeName ++ " found")
  return ", ".intercalate texts

/-! ## The commands -/

section Commands
variable {rt : Runtime} (platform : Platform rt)

def readKeyFile (path : String) : Command Bytes := do
  let text ← readText path
  Effect.lift (fromhex (String.ofList (strip text.toList)))

def readPrivateKey (path : String) : Command rt.PrivateKey := do
  let raw ← readKeyFile path
  Effect.lift (platform.fromPrivateBytes raw)

def readPublicKey (path : String) : Command rt.PublicKey := do
  let raw ← readKeyFile path
  Effect.lift (platform.fromPublicBytes raw)

def publicFile (out : String) : String := out ++ ".pub"

def keyText (raw : Bytes) : String := hex raw ++ "\n"

def keygen (key : rt.PrivateKey) (out : String) : Command Int := do
  writeText out (keyText (platform.privateBytes key))
  writeText (publicFile out) (keyText (platform.publicBytes (rt.publicKey key)))
  print ("wrote " ++ out ++ " and " ++ out ++ ".pub")
  return 0

def signedLine (rt : Runtime) (bundle : WireBundle) (out : String) : String :=
  "signed bundle " ++ bundle.bundleId.text ++ " (" ++
    String.ofList ((bundle.hash rt).toList.take 16) ++ ") to " ++ out

/-- The bundle is loaded at one clock and published at another. -/
def signBundle (policy key issuer out : String) (loadedAt publishedAt : DateTime) :
    Command Int := do
  let text ← readText policy
  let data ← Effect.lift (platform.jsonLoads text)
  let bundle ← Effect.lift (loadBundleJson data loadedAt)
  let privateKey ← readPrivateKey platform key
  let envelope ← Effect.lift (sign rt msgPolicyBundle issuer publishedAt defaultNonce
    (encodeBundle rt bundle) privateKey)
  writeBytes out (encodeEnvelope rt envelope)
  printShowing [bundle.bundleId] (signedLine rt bundle out)
  return 0

/-- The lines about a bundle that verified. -/
def describe (rt : Runtime) (issuer : Value) (bundle : WireBundle) : Command Unit := do
  printShowing [bundle.bundleId, issuer]
    ("verified bundle " ++ bundle.bundleId.text ++ " from " ++ issuer.text)
  print ("  hash        " ++ bundle.hash rt)
  print ("  valid until " ++ bundle.notAfter.isoformat)
  let links ← Effect.lift (joinIds (bundle.links.map (·.id)))
  print ("  links       " ++ links)
  let classes ← Effect.lift (joinIds (bundle.trafficClasses.map (·.id)))
  print ("  classes     " ++ classes)
  print ("  rules       " ++ String.ofList (decimal bundle.rules.length))

/-- Verification whose refusal shows who the envelope says it is from. -/
def verifyShowing (rt : Runtime) (envelope : Envelope) (publicKey : rt.PublicKey) :
    Except Exc Unit :=
  (verify rt envelope publicKey).mapError fun e =>
    if Exc.isSignatureInvalid e then showing [envelope.msgType, envelope.issuer] e else e

/-- What is caught while the key is read and the envelope verified. -/
def refusal (envelope : Envelope) (key : String) : Command (Option Exc) :=
  tryCatch
    (do
      let publicKey ← readPublicKey platform key
      Effect.lift (verifyShowing rt envelope publicKey)
      return none)
    fun e => if Exc.isSignatureInvalid e then return some e else throw e

def verifyBundle (file key : String) : Command Int := do
  let data ← readBytes file
  let envelope ← Effect.lift (decodeEnvelope rt data)
  match ← refusal platform envelope key with
  | some e =>
      printError ("REFUSED: " ++ e.message)
      return 1
  | none =>
      let bundle ← Effect.lift (decodeBundle rt envelope.payload)
      describe rt envelope.issuer bundle
      return 0

/-- A call of the program. -/
inductive Invocation (rt : Runtime) where
  | keygen (key : rt.PrivateKey) (out : String)
  | signBundle (policy key issuer out : String) (loadedAt publishedAt : DateTime)
  | verifyBundle (file key : String)

def Invocation.call : Invocation rt → Command Int
  | keygen key out => Pilotfish.keygen platform key out
  | signBundle policy key issuer out loadedAt publishedAt =>
      Pilotfish.signBundle platform policy key issuer out loadedAt publishedAt
  | verifyBundle file key => Pilotfish.verifyBundle platform file key

/-- The files a call may write. -/
def Invocation.writes : Invocation rt → List String
  | keygen _ out => [out, publicFile out]
  | signBundle _ _ _ out _ _ => [out]
  | verifyBundle _ _ => []

/-- One process after another; how one ends does not keep the next from running. -/
def happenInvocations (calls : List (Invocation rt)) (s : Console) : Console :=
  calls.foldl (fun s i => (i.call platform s).2) s

end Commands

/-! ## What a call leaves -/

/-- Only these files may have changed. -/
def OnlyWrites (paths : List String) (s s' : Console) : Prop :=
  ∀ path ∉ paths, s'.files path = s.files path

section Frames
variable {rt : Runtime} {platform : Platform rt} {paths : List String} {α β : Type}

/-- A call that writes no other file than these, however it ends. -/
abbrev Bounded (paths : List String) (command : Command α) : Prop :=
  Effect.Within (OnlyWrites paths) command

theorem Bounded.lift (r : Except Exc α) : Bounded paths (Effect.lift r) := fun _ _ _ => rfl

theorem Bounded.bind {m : Command α} {f : α → Command β} (hm : Bounded paths m)
    (hf : ∀ a, Bounded paths (f a)) : Bounded paths (m >>= f) :=
  Effect.Within.bind (fun hab hbc path hpath => (hbc path hpath).trans (hab path hpath)) hm hf

theorem Bounded.tryCatch {m : Command α} {handler : Exc → Command α} (hm : Bounded paths m)
    (hh : ∀ e, Bounded paths (handler e)) : Bounded paths (tryCatch m handler) :=
  Effect.Within.tryCatch (fun hab hbc path hpath => (hbc path hpath).trans (hab path hpath)) hm hh

theorem Bounded.readBytes (path : String) : Bounded paths (readBytes path) := fun _ _ _ => rfl

theorem Bounded.writeBytes {path : String} (h : path ∈ paths) (data : Bytes) :
    Bounded paths (writeBytes path data) := fun _ other hother =>
  Function.update_of_ne (fun heq : other = path => hother (heq ▸ h)) _ _

theorem Bounded.print (line : String) : Bounded paths (print line) := fun _ _ _ => rfl

theorem Bounded.printError (line : String) : Bounded paths (printError line) := fun _ _ _ => rfl

theorem Bounded.printShowing (shown : List Value) (line : String) :
    Bounded paths (printShowing shown line) := .bind (.lift _) fun _ => .print line

theorem Bounded.readText (path : String) : Bounded paths (readText path) :=
  .bind (.readBytes path) fun _ => .lift _

theorem Bounded.readKeyFile (path : String) : Bounded paths (readKeyFile path) :=
  .bind (.readText path) fun _ => .lift _

theorem Bounded.describe (rt : Runtime) (issuer : Value) (bundle : WireBundle) :
    Bounded paths (describe rt issuer bundle) :=
  .bind (.printShowing _ _) fun _ => .bind (.print _) fun _ => .bind (.print _) fun _ =>
    .bind (.lift _) fun _ => .bind (.print _) fun _ => .bind (.lift _) fun _ =>
    .bind (.print _) fun _ => .print _

theorem Bounded.refusal (envelope : Envelope) (key : String) :
    Bounded paths (refusal platform envelope key) := by
  refine .tryCatch ?_ fun e => ?_
  · exact .bind (.bind (.readKeyFile key) fun _ => .lift _) fun _ => .bind (.lift _) fun _ =>
      .lift (.ok none)
  · by_cases h : Exc.isSignatureInvalid e
    · rw [if_pos h]
      exact .lift (.ok (some e))
    · rw [if_neg h]
      exact .lift (.error e)

/-- A call changes no file but those it is told to write, and standard output is not a file. -/
theorem Invocation.call_bounded (i : Invocation rt) : Bounded i.writes (i.call platform) := by
  cases i with
  | keygen key out =>
    exact .bind (.writeBytes List.mem_cons_self _) fun _ =>
      .bind (.writeBytes (List.mem_cons_of_mem _ List.mem_cons_self) _) fun _ =>
      .bind (.print _) fun _ => .lift (.ok 0)
  | signBundle policy key issuer out loadedAt publishedAt =>
    exact .bind (.readText policy) fun _ => .bind (.lift _) fun _ => .bind (.lift _) fun _ =>
      .bind (.bind (.readKeyFile key) fun _ => .lift _) fun _ => .bind (.lift _) fun _ =>
      .bind (.writeBytes List.mem_cons_self _) fun _ => .bind (.printShowing _ _) fun _ =>
      .lift (.ok 0)
  | verifyBundle file key =>
    refine .bind (.readBytes file) fun _ => .bind (.lift _) fun envelope =>
      .bind (.refusal envelope key) fun refused => ?_
    cases refused with
    | some e => exact .bind (.printError _) fun _ => .lift (.ok 1)
    | none => exact .bind (.lift _) fun _ => .bind (.describe _ _ _) fun _ => .lift (.ok 0)

/-- Commands change no file but those they are told to write. -/
theorem happenInvocations_keeps {calls : List (Invocation rt)} {path : String} {s : Console}
    (h : ∀ i ∈ calls, path ∉ i.writes) :
    (happenInvocations platform calls s).files path = s.files path := by
  induction calls generalizing s with
  | nil => rfl
  | cons i calls ih =>
    have hstep : (i.call platform s).2.files path = s.files path :=
      i.call_bounded s path (h i List.mem_cons_self)
    exact (ih fun j hj => h j (List.mem_cons_of_mem i hj)).trans hstep

end Frames

/-! ## What was written is read -/

theorem universalNewlines_of_clean {text : List Char} (h : '\r' ∉ text) :
    universalNewlines text = text := by
  induction text with
  | nil => rfl
  | cons c cs ih =>
    have hc : c ≠ '\r' := fun heq => h (heq ▸ List.mem_cons_self)
    rw [universalNewlines, ih fun hmem => h (List.mem_cons_of_mem c hmem)]
    · rintro rest rfl
      exact (hc rfl).elim
    · exact hc

theorem readBack_of_clean {text : String} (h : '\r' ∉ text.toList) : readBack text = text := by
  rw [readBack, universalNewlines_of_clean h, String.ofList_toList]

theorem decodeText_encodeText (text : String) :
    decodeText (encodeText text) = .ok (readBack text) := by
  have hread : String.fromUTF8? ⟨(encodeText text).toArray⟩ = some text := by
    show String.fromUTF8? ⟨text.toByteArray.data.toList.toArray⟩ = _
    rw [Array.toArray_toList]
    exact dif_pos text.isValidUTF8
  rw [decodeText, hread]
  rfl

theorem readText_encodeText {path text : String} {s : Console}
    (h : s.files path = some (encodeText text)) : readText path s = (.ok (readBack text), s) := by
  have hbytes : readBytes path s = (.ok (encodeText text), s) := by
    rw [readBytes, h]
    rfl
  rw [readText, Effect.bind_of_ok hbytes, Effect.lift_apply, decodeText_encodeText]

theorem hex_no_space (raw : Bytes) : ∀ c ∈ (hex raw).toList, isSpace c = false := by
  intro c hc
  rw [hex, String.toList_ofList, List.mem_flatMap] at hc
  obtain ⟨b, -, hb⟩ := hc
  rcases List.mem_pair.mp hb with rfl | rfl
  · exact (hexDigit_lt _ (by have := b.toNat_lt; omega)).1
  · exact (hexDigit_lt _ (by omega)).1

/-- A key file is read as the key it was written with. -/
theorem readKeyFile_keyText {path : String} {raw : Bytes} {s : Console}
    (h : s.files path = some (encodeText (keyText raw))) : readKeyFile path s = (.ok raw, s) := by
  have htext : (keyText raw).toList = (hex raw).toList ++ ['\n'] := String.toList_append
  have hclean : '\r' ∉ (keyText raw).toList := by
    rw [htext]
    intro hmem
    rcases List.mem_append.mp hmem with hmem | hmem
    · have hspace : isSpace '\r' = true := by decide
      rw [hex_no_space raw _ hmem] at hspace
      cases hspace
    · exact absurd hmem (by decide)
  have hstrip : strip (keyText raw).toList = (hex raw).toList := by
    rw [htext]
    rcases List.eq_nil_or_concat (hex raw).toList with hnil | ⟨cs, c, hcs⟩
    · rw [hnil]
      decide
    · exact strip_append_newline (by rw [hcs]; simp) (hex_no_space raw)
  rw [readKeyFile, Effect.bind_of_ok (readText_encodeText h), readBack_of_clean hclean, hstrip,
    String.ofList_toList, fromhex_hex, Effect.lift_apply]

/-! ## From the policy file to the description -/

theorem joinIds_str {α : Type} (name : α → String) (xs : List α) :
    joinIds (xs.map fun x => .str (name x)) = .ok (", ".intercalate (xs.map name)) := by
  have htexts (n : Nat) : ((xs.map fun x => Value.str (name x)).zipIdx n).mapM
      (fun (entry : Value × Nat) => match entry with
        | (v, i) => match v with
          | .str s => Except.ok s
          | v => Value.typeError ("sequence item " ++ String.ofList (decimal i) ++
              ": expected str instance, " ++ v.typeName ++ " found")) = .ok (xs.map name) := by
    induction xs generalizing n with
    | nil => rfl
    | cons x xs ih =>
      rw [List.map_cons, List.zipIdx_cons, List.mapM_cons, ih]
      rfl
  rw [joinIds, htexts 0]
  rfl

/-- The lines about a bundle whose fields are of their declared types. -/
def description (rt : Runtime) (issuer : String) (b : PolicyBundle) : List String :=
  ["verified bundle " ++ b.bundleId ++ " from " ++ issuer,
    "  hash        " ++ b.toWire.hash rt,
    "  valid until " ++ b.notAfter.isoformat,
    "  links       " ++ ", ".intercalate (b.links.map (·.id)),
    "  classes     " ++ ", ".intercalate (b.trafficClasses.map (·.id)),
    "  rules       " ++ String.ofList (decimal b.rules.length)]

theorem describe_toWire (rt : Runtime) (issuer : String) (b : PolicyBundle) (s : Console) :
    describe rt (.str issuer) b.toWire s =
      (.ok (), { s with stdout := s.stdout ++ description rt issuer b }) := by
  have hlinks : joinIds (b.toWire.links.map (·.id)) =
      .ok (", ".intercalate (b.links.map (·.id))) := by
    rw [← joinIds_str]
    simp [PolicyBundle.toWire, Link.toWire, Function.comp_def]
  have hclasses : joinIds (b.toWire.trafficClasses.map (·.id)) =
      .ok (", ".intercalate (b.trafficClasses.map (·.id))) := by
    rw [← joinIds_str]
    simp [PolicyBundle.toWire, TrafficClass.toWire, Function.comp_def]
  have hrules : b.toWire.rules.length = b.rules.length := List.length_map _
  unfold describe
  rw [hlinks, hclasses, hrules]
  show (Except.ok (), Console.mk s.files _ s.stderr) = _
  simp only [description, List.append_assoc, List.cons_append, List.nil_append]
  rfl

theorem fields_toWire (b : PolicyBundle) : b.toWire.fields = b.fields := by
  have hrule (r : Rule) : encodeRule r.toWire = encodeRule r := by
    cases r <;> rfl
  simp only [PolicyBundle.fields, PolicyBundle.toWire, List.map_map, Function.comp_def,
    encodeLink_toWire, encodeClass_toWire, hrule]
  rfl

/-- Only the instants differ of what is signed and what arrives, and no line shows them finer. -/
theorem signedLine_cut {rt : Runtime} {b c : PolicyBundle} (h : b.cut = .ok c) (out : String) :
    signedLine rt b.toWire out = signedLine rt c.toWire out := by
  have hid : b.toWire.bundleId = c.toWire.bundleId := by
    rw [(PolicyBundle.cut_eq_ok_iff.mp h).2.2.2]
    rfl
  have hhash : b.toWire.hash rt = c.toWire.hash rt := by
    rw [PolicyBundle.hash, PolicyBundle.hash, encodeBundle, encodeBundle, fields_toWire,
      PolicyBundle.fields_of_cut h]
  unfold signedLine
  rw [hid, hhash]

section Trip
variable {rt : Runtime} {platform : Platform rt} {key : rt.PrivateKey}
  {policy issuer out keyFile : String} {loadedAt publishedAt t : DateTime} {b c : PolicyBundle}
  {s : Console}

theorem keygen_files :
    ((keygen platform key keyFile s).2.files keyFile =
      some (encodeText (keyText (platform.privateBytes key)))) ∧
    (keygen platform key keyFile s).2.files (publicFile keyFile) =
      some (encodeText (keyText (platform.publicBytes (rt.publicKey key)))) := by
  have hne : keyFile ≠ publicFile keyFile := by
    intro heq
    have hlength := congrArg String.length heq
    rw [publicFile, String.length_append] at hlength
    have hsuffix : ".pub".length = 4 := rfl
    omega
  constructor
  · exact (Function.update_of_ne hne _ _).trans (Function.update_self _ _ _)
  · exact Function.update_self _ _ _

/-- What the command writes. -/
def signedFile (rt : Runtime) (issuer : String) (publishedAt : DateTime) (b : PolicyBundle)
    (key : rt.PrivateKey) : Bytes :=
  encodeEnvelope rt (signed rt msgPolicyBundle issuer publishedAt defaultNonce (encodeBundle rt b)
    key)

variable (lawful : platform.Lawful)
include lawful

theorem signBundle_ok {text : String} {data : Value}
    (hkey : s.files keyFile = some (encodeText (keyText (platform.privateBytes key))))
    (hpolicy : readText policy s = (.ok text, s)) (hparse : platform.jsonLoads text = .ok data)
    (hload : loadBundleJson data loadedAt = .ok b.toWire) :
    signBundle platform policy keyFile issuer out loadedAt publishedAt s = (.ok 0, { s with
      files := Function.update s.files out (some (signedFile rt issuer publishedAt b key))
      stdout := s.stdout ++ [signedLine rt b.toWire out] }) := by
  have hread : readPrivateKey platform keyFile s = (.ok key, s) := by
    rw [readPrivateKey, Effect.bind_of_ok (readKeyFile_keyText hkey), Effect.lift_apply,
      lawful.private_readBack]
  have hsign : sign rt msgPolicyBundle issuer publishedAt defaultNonce (encodeBundle rt b.toWire)
      key = .ok (signed rt msgPolicyBundle issuer publishedAt defaultNonce (encodeBundle rt b)
        key) := by
    rw [encodeBundle, fields_toWire]
    exact sign_ok List.length_replicate
  rw [signBundle, Effect.bind_of_ok hpolicy, Effect.lift_bind_of_ok hparse,
    Effect.lift_bind_of_ok hload, Effect.bind_of_ok hread, Effect.lift_bind_of_ok hsign]
  rfl

/-- A signed file is described as the bundle that arrives, its instants cut to the second. -/
theorem verifyBundle_ok (laws : rt.Lawful)
    (hpublic : s.files (publicFile keyFile) =
      some (encodeText (keyText (platform.publicBytes (rt.publicKey key)))))
    (hsigned : s.files out = some (signedFile rt issuer publishedAt b key))
    (ht : publishedAt.cut = .ok t) (hc : b.cut = .ok c) :
    verifyBundle platform out (publicFile keyFile) s =
      (.ok 0, { s with stdout := s.stdout ++ description rt issuer c }) := by
  have hbytes : readBytes out s = (.ok (signedFile rt issuer publishedAt b key), s) := by
    rw [readBytes, hsigned]
    rfl
  have hread : readPublicKey platform (publicFile keyFile) s = (.ok (rt.publicKey key), s) := by
    rw [readPublicKey, Effect.bind_of_ok (readKeyFile_keyText hpublic), Effect.lift_apply,
      lawful.public_readBack]
  have hverify : verifyShowing rt { signed rt msgPolicyBundle issuer publishedAt defaultNonce
      (encodeBundle rt b) key with issuedAt := t } (rt.publicKey key) = .ok () := by
    have hlength : defaultNonce.length = nonceBytes := List.length_replicate
    exact congrArg (Except.mapError _) (verify_sign laws hlength (DateTime.cut_seconds ht))
  have hvouched : refusal platform { signed rt msgPolicyBundle issuer publishedAt defaultNonce
      (encodeBundle rt b) key with issuedAt := t } (publicFile keyFile) s = (.ok none, s) :=
    Effect.tryCatch_of_ok (by
      rw [Effect.bind_of_ok hread, Effect.lift_bind_of_ok hverify]
      rfl)
  have hdecode : decodeBundle rt (.bytes (encodeBundle rt b)) = .ok c.toWire := by
    rw [decodeBundle_encodeBundle laws, hc]
    rfl
  rw [verifyBundle, Effect.bind_of_ok hbytes, signedFile,
    Effect.lift_bind_of_ok (decodeEnvelope_signed laws ht), Effect.bind_of_ok hvouched]
  exact (Effect.lift_bind_of_ok hdecode _ _).trans
    (Effect.bind_of_ok (describe_toWire rt issuer c s))

end Trip

/-- A policy signed with a generated key is described under its public key, with the hash that was
shown when it was signed, whatever calls run before and after the signing. -/
theorem signed_is_described {rt : Runtime} (laws : rt.Lawful) {platform : Platform rt}
    (lawful : platform.Lawful) (key : rt.PrivateKey) {policy issuer out keyFile text : String}
    {data : Value} {loadedAt publishedAt t : DateTime} {b c : PolicyBundle} (start : Console)
    (before after : List (Invocation rt))
    (hbefore : ∀ i ∈ before, keyFile ∉ i.writes ∧ publicFile keyFile ∉ i.writes)
    (hafter : ∀ i ∈ after, out ∉ i.writes ∧ publicFile keyFile ∉ i.writes)
    (hout : out ≠ publicFile keyFile) :
    let ready := happenInvocations platform (.keygen key keyFile :: before) start
    readText policy ready = (.ok text, ready) → platform.jsonLoads text = .ok data →
    loadBundleJson data loadedAt = .ok b.toWire → publishedAt.cut = .ok t → b.cut = .ok c →
    let signing := signBundle platform policy keyFile issuer out loadedAt publishedAt ready
    let settled := happenInvocations platform after signing.2
    signing.1 = .ok 0 ∧ signing.2.stdout = ready.stdout ++ [signedLine rt c.toWire out] ∧
    verifyBundle platform out (publicFile keyFile) settled =
      (.ok 0, { settled with stdout := settled.stdout ++ description rt issuer c }) := by
  intro ready hpolicy hparse hload ht hc signing settled
  have hready : ready = happenInvocations platform before (keygen platform key keyFile start).2 :=
    rfl
  have hprivate : ready.files keyFile = some (encodeText (keyText (platform.privateBytes key))) := by
    rw [hready, happenInvocations_keeps fun i hi => (hbefore i hi).1]
    exact keygen_files.1
  have hpublic : ready.files (publicFile keyFile) =
      some (encodeText (keyText (platform.publicBytes (rt.publicKey key)))) := by
    rw [hready, happenInvocations_keeps fun i hi => (hbefore i hi).2]
    exact keygen_files.2
  have hsigning : signing = (.ok 0, { ready with
      files := Function.update ready.files out (some (signedFile rt issuer publishedAt b key))
      stdout := ready.stdout ++ [signedLine rt b.toWire out] }) :=
    signBundle_ok lawful hprivate hpolicy hparse hload
  have hfile : settled.files out = some (signedFile rt issuer publishedAt b key) := by
    refine (happenInvocations_keeps fun i hi => (hafter i hi).1).trans ?_
    rw [hsigning]
    exact Function.update_self _ _ _
  have hkept : settled.files (publicFile keyFile) =
      some (encodeText (keyText (platform.publicBytes (rt.publicKey key)))) := by
    refine (happenInvocations_keeps fun i hi => (hafter i hi).2).trans ?_
    rw [hsigning]
    exact (Function.update_of_ne hout.symm _ _).trans hpublic
  rw [hsigning, signedLine_cut hc out]
  exact ⟨rfl, rfl, verifyBundle_ok lawful laws hkept hfile ht hc⟩

namespace Sample

def policyText : String :=
  "\x7b\"bundle_id\": \"b1\", \"authority_id\": \"authority-1\", \"sequence\": 1, " ++
    "\"validity_s\": 21600, \"decision_ttl_s\": 60, " ++
    "\"links\": [\x7b\"id\": \"fiber0\", \"type\": \"fiber\"\x7d], " ++
    "\"traffic_classes\": [\x7b\"id\": \"bulk\"\x7d], \"rules\": [[\"down\", \"R-DOWN\"]]\x7d\n"

/-- A parser that knows one text, as it is read. -/
def platform : Platform standIn where
  jsonLoads text :=
    if text = readBack policyText then .ok (policyFile (.int 1))
    else .error ⟨.user "JSONDecodeError", "Expecting value: line 1 column 1 (char 0)"⟩
  privateBytes key := key
  fromPrivateBytes raw := .ok raw
  publicBytes key := key
  fromPublicBytes raw := .ok raw

theorem lawful_platform : platform.Lawful := ⟨fun _ => rfl, fun _ => rfl⟩

def desk : Console :=
  ⟨fun path => if path = "policy.json" then some (encodeText policyText) else none, [], []⟩

/-- The bundle of the policy file. -/
def fileBundle : PolicyBundle := { bundle 1 with links := [fiber0] }

theorem cut_fileBundle : fileBundle.cut = .ok fileBundle :=
  PolicyBundle.cut_eq_ok_iff.mpr ⟨cut_clock 0, cut_clock 21600, rfl, rfl⟩

/-- A description that fails, for there is no file yet. -/
def early : List (Invocation standIn) := [.verifyBundle "bundle" "key.pub"]

/-- The key of a site is made, and a policy signed with it elsewhere. -/
def late : List (Invocation standIn) :=
  [.keygen siteKey "site", .signBundle "policy.json" "site" "site-1" "other" (clock 0) (clock 60)]

end Sample

theorem signed_is_described_sample :
    let ready := happenInvocations Sample.platform (.keygen Sample.signer.key "key" :: Sample.early)
      Sample.desk
    let signing := signBundle Sample.platform "policy.json" "key" "authority-1" "bundle"
      (Sample.clock 0) (Sample.clock 60) ready
    let settled := happenInvocations Sample.platform Sample.late signing.2
    signing.1 = .ok 0 ∧
    signing.2.stdout = ready.stdout ++ [signedLine standIn Sample.fileBundle.toWire "bundle"] ∧
    verifyBundle Sample.platform "bundle" (publicFile "key") settled = (.ok 0, { settled with
      stdout := settled.stdout ++ description standIn "authority-1" Sample.fileBundle }) := by
  have hbefore : ∀ i ∈ Sample.early, "key" ∉ i.writes ∧ publicFile "key" ∉ i.writes := by
    intro i hi
    rw [List.mem_singleton.mp hi]
    exact ⟨List.not_mem_nil, List.not_mem_nil⟩
  have hafter : ∀ i ∈ Sample.late, "bundle" ∉ i.writes ∧ publicFile "key" ∉ i.writes := by
    intro i hi
    rcases List.mem_pair.mp hi with rfl | rfl <;> decide
  have hkept : ∀ i ∈ Invocation.keygen Sample.signer.key "key" :: Sample.early,
      "policy.json" ∉ i.writes := by
    intro i hi
    rcases List.mem_pair.mp hi with rfl | rfl <;> decide
  have hdesk : Sample.desk.files "policy.json" = some (encodeText Sample.policyText) := by
    simp only [Sample.desk, if_true]
  have hfile : (happenInvocations Sample.platform (.keygen Sample.signer.key "key" :: Sample.early)
      Sample.desk).files "policy.json" = some (encodeText Sample.policyText) :=
    (happenInvocations_keeps hkept).trans hdesk
  have hparse : Sample.platform.jsonLoads (readBack Sample.policyText) =
      .ok (Sample.policyFile (.int 1)) := by
    simp only [Sample.platform, if_true]
  have hload : loadBundleJson (Sample.policyFile (.int 1)) (Sample.clock 0) =
      .ok Sample.fileBundle.toWire := Sample.loadBundleJson_policyFile (.int 1)
  exact signed_is_described lawful_standIn Sample.lawful_platform Sample.signer.key Sample.desk
    Sample.early Sample.late hbefore hafter (by decide)
    (readText_encodeText hfile) hparse hload
    (Sample.cut_clock 60) Sample.cut_fileBundle

end Pilotfish
