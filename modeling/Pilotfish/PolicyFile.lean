import Pilotfish.Decide
import Pilotfish.Governance
import Pilotfish.SharedMark

/-!
# From a policy file to the mark

An authority loads a policy from a JSON file. Nothing on the way from there to a site's mark looks
at the type of the sequence: the loader, the codec and the order take any number, and the mark is
the number as it prints. Only an integer is read back from what is printed.

Results:
1. `sequence_of_loaded`: a loaded bundle carries the sequence of its file as it is.
2. `read_after_accept`: what the mark of a site reads as once a bundle was accepted.
3. `read_back_iff`: when that is the sequence of the bundle, and when it cannot be read at all.
-/

namespace Pilotfish
open Python

/-! ## Loading -/

/-- A link of a policy file. What has an id under a text is a dict. -/
def loadLink (link : Value) : Except Exc WireLink := do
  return {
    id := ← link.field "id"
    type := ← link.field "type"
    metered := (link.get? "metered").getD (.bool false)
    encryptedBelow := (link.get? "encrypted_below").getD (.bool false)
    jurisdictions := ← ((link.get? "jurisdictions").getD (.list [])).iter
    owner := (link.get? "owner").getD (.str "") }

/-- The latency bound is checked last, when the class is built. -/
def loadClass (c : Value) : Except Exc WireClass := do
  let id ← c.field "id"
  let allowedJurisdictions ← match c.get? "allowed_jurisdictions" with
    | none => pure none
    | some v => some <$> Value.iter v
  return {
    id := id
    maxRttMs := ← requireFinite "TrafficClass.max_rtt_ms" ((c.get? "max_rtt_ms").getD .null)
    allowMetered := (c.get? "allow_metered").getD (.bool true)
    allowedJurisdictions := allowedJurisdictions
    requiresEncryption := (c.get? "requires_encryption").getD (.bool false) }

/-- Read a declarative policy file; `data` is what `json.loads` makes of it. -/
def loadBundleJson (data : Value) (issued : DateTime) : Except Exc WireBundle := do
  return {
    bundleId := ← data.field "bundle_id"
    authorityId := ← data.field "authority_id"
    sequence := ← data.field "sequence"
    issuedAt := issued
    notAfter := ← issued.add (← timedelta (← data.field "validity_s"))
    decisionTtlS := ← data.field "decision_ttl_s"
    links := ← tupleOf loadLink (← data.field "links")
    trafficClasses := ← tupleOf loadClass (← data.field "traffic_classes")
    rules := ← tupleOf decodeRule (← data.field "rules") }

/-- What is loaded carries the sequence as the file has it. -/
theorem sequence_of_loaded {data : Value} {issued : DateTime} {bundle : WireBundle}
    (h : loadBundleJson data issued = .ok bundle) : data.field "sequence" = .ok bundle.sequence := by
  unfold loadBundleJson at h
  simp only [bind_eq_ok_iff] at h
  obtain ⟨_, -, _, -, sequence, hsequence, _, -, _, -, _, -, _, -, _, -, _, -, _, -, _, -, _, -, _, -,
    hbundle⟩ := h
  obtain rfl := Except.ok.inj hbundle
  exact hsequence

/-! ## What is read back -/

section ReadBack
variable {rt : Runtime} {s s' : BundleStore rt} {file file' : EpochFile} {faults : EpochFaults}
  {envelopeBytes : Bytes} {now : DateTime} {bundle : WireBundle}

theorem Value.le_of_eq_int {v : Value} {n : Int} (h : v.eq (.int n) = true) :
    v.le (.int n) = .ok true := by
  have hn : (Value.int n).number = some (.fin n) := rfl
  rcases Value.number_of_eq_int h with hv | ⟨hv, -⟩
  · rw [Value.eq_of_number hv hn] at h
    simp only [Value.le, hv, hn, Double.le, h, Bool.or_true]
  · rw [Value.eq_of_number hv hn] at h
    simp only [Value.le, hv, hn, Double.le, h, Bool.or_true]

/-- An accepted bundle is above the mark, which then is its sequence as it prints, for it can be
printed, or at or below the mark, which then stays. -/
theorem read_after_accept
    (h : s.accept (.file file) faults envelopeBytes now = (.ok bundle, s', .file file')) :
    ∃ mark : Int, (EpochStore.file file).read = .ok (.int mark) ∧
      (bundle.sequence.le (.int mark) = .ok true ∧
          (EpochStore.file file').read = .ok (.int mark) ∨
        bundle.sequence.le (.int mark) = .ok false ∧ bundle.sequence.printable = true ∧
          (EpochStore.file file').read = ((EpochStore.file file).marked bundle.sequence).read) := by
  obtain ⟨envelope, admitted, -, hcommit, hafter⟩ := BundleStore.accept_ok (congrArg Prod.fst h)
  have hfile : ((EpochStore.file file).commit faults bundle.sequence).2 = .file file' := by
    rw [h] at hafter
    exact (congrArg Prod.snd hafter).symm
  obtain ⟨x, -, hnumber, -⟩ := Value.number_of_le admitted.newer
  -- a mark that cannot be read would have been raised
  obtain ⟨mark, hmark⟩ : ∃ mark : Int, (EpochStore.file file).read = .ok (.int mark) := by
    cases hread : (EpochStore.file file).read with
    | error e =>
      obtain ⟨⟨e', he'⟩, -⟩ := EpochStore.commit_of_unreadable hread faults bundle.sequence
      rw [he'] at hcommit
      cases hcommit
    | ok v =>
      obtain ⟨m, rfl⟩ := integerMark_file file v hread
      exact ⟨m, rfl⟩
  refine ⟨mark, hmark, ?_⟩
  by_cases hmoves : (EpochStore.file file).Moves faults bundle.sequence
  · have ⟨⟨current, hcurrent, hle⟩, hprintable, _⟩ := hmoves
    refine .inr ⟨?_, hprintable, ?_⟩
    · rwa [Except.ok.inj (hmark.symm.trans hcurrent)]
    · have hbare : ((EpochStore.file file).marked bundle.sequence).bare =
          (EpochStore.file file).marked bundle.sequence := rfl
      rw [← hfile]
      exact EpochStore.read_of_bare ((EpochStore.commit_of_moves hmoves).2.trans hbare.symm)
  · refine .inl ⟨?_, ?_⟩
    · obtain ⟨n, hn, hle⟩ := EpochStore.rank_of_not_moves hmark (Value.rank_int mark).choose_spec
        hnumber (fun hvolatile => hvolatile.elim) hmoves hcommit
      rw [Value.le_of_rank hn (Value.rank_int mark).choose_spec, decide_eq_true hle]
    · rw [← hfile, EpochStore.read_of_bare (EpochStore.bare_commit_of_not_moves hmoves), hmark]

/-- A mark that a number was printed as is that number, if it is an integer, and unreadable
otherwise. -/
theorem read_marked {x : Double} (hnumber : bundle.sequence.number = some x)
    (hprintable : bundle.sequence.printable = true) :
    (∃ n, bundle.sequence = .int n ∧
        ((EpochStore.file file).marked bundle.sequence).read = .ok (.int n)) ∨
      (∀ n, bundle.sequence ≠ .int n) ∧
        ∃ e, ((EpochStore.file file).marked bundle.sequence).read = .error e := by
  simp only [EpochStore.marked, EpochStore.read]
  cases hparse : intOf? (strip (bundle.sequence.text.toList ++ ['\n'])) with
  | some n => exact .inl ⟨n, Value.parseInt_text hnumber (parseInt_of_intOf? hparse), rfl⟩
  | none =>
    refine .inr ⟨?_, _, rfl⟩
    intro n hn
    rw [hn] at hprintable hparse
    rw [Value.text_int, String.toList_ofList, intOf?_intText (of_decide_eq_true hprintable)]
      at hparse
    cases hparse

/-- Once a bundle was accepted, the mark reads as its sequence exactly when that is an integer above
the old mark, or equals the old mark; it cannot be read at all exactly when it is another number
above the old mark. -/
theorem read_back_iff
    (h : s.accept (.file file) faults envelopeBytes now = (.ok bundle, s', .file file')) :
    ∃ mark : Int, (EpochStore.file file).read = .ok (.int mark) ∧
      ((∃ v, (EpochStore.file file').read = .ok v ∧ bundle.sequence.eq v = true) ↔
        (∃ n, bundle.sequence = .int n ∧ mark < n) ∨ bundle.sequence.eq (.int mark) = true) ∧
      ((∃ e, (EpochStore.file file').read = .error e) ↔
        bundle.sequence.le (.int mark) = .ok false ∧ ∀ n, bundle.sequence ≠ .int n) := by
  obtain ⟨envelope, admitted, -⟩ := BundleStore.accept_ok (congrArg Prod.fst h)
  obtain ⟨x, -, hnumber, -⟩ := Value.number_of_le admitted.newer
  rcases read_after_accept h with ⟨mark, hmark, ⟨hle, hread⟩ | ⟨habove, hprintable, hread⟩⟩
  · -- the mark stayed, so no integer above it was accepted
    refine ⟨mark, hmark, ?_, ?_⟩
    · rw [hread]
      constructor
      · rintro ⟨v, hv, heq⟩
        cases hv
        exact .inr heq
      · rintro (⟨n, hn, hlt⟩ | heq)
        · rw [hn, Value.le_int, Except.ok.injEq, decide_eq_true_eq] at hle
          omega
        · exact ⟨_, rfl, heq⟩
    · rw [hread, hle]
      simp
  · have hne : bundle.sequence.eq (.int mark) ≠ true := by
      intro heq
      rw [Value.le_of_eq_int heq] at habove
      cases habove
    rw [hread]
    rcases read_marked hnumber hprintable with ⟨n, hn, hprinted⟩ | ⟨hint, e, hprinted⟩
    · -- an integer is read back as itself
      have hlt : mark < n := by
        rw [hn, Value.le_int, Except.ok.injEq, decide_eq_false_iff_not, not_le] at habove
        exact habove
      rw [hprinted]
      refine ⟨mark, hmark, iff_of_true ⟨_, rfl, by simp [hn]⟩ (.inl ⟨n, hn, hlt⟩), ?_⟩
      refine iff_of_false ?_ fun hno => hno.2 n hn
      rintro ⟨e, he⟩
      cases he
    · rw [hprinted]
      refine ⟨mark, hmark, iff_of_false ?_ ?_, iff_of_true ⟨e, rfl⟩ ⟨habove, hint⟩⟩
      · rintro ⟨v, hv, -⟩
        cases hv
      · rintro (⟨n, hn, -⟩ | heq)
        · exact hint n hn
        · exact hne heq

end ReadBack

/-! ## A policy file -/

namespace Sample

def dict (entries : List (String × Value)) : Value :=
  .map (entries.map fun entry => .str entry.1) (entries.map (·.2))

/-- One link and one class, valid for six hours. -/
def policyFile (sequence : Value) : Value :=
  dict [("bundle_id", .str "b1"), ("authority_id", .str "authority-1"), ("sequence", sequence),
    ("validity_s", .int 21600), ("decision_ttl_s", .int 60),
    ("links", .list [dict [("id", .str "fiber0"), ("type", .str "fiber")]]),
    ("traffic_classes", .list [dict [("id", .str "bulk")]]),
    ("rules", .list [.list [.str "down", .str "R-DOWN"]])]

def loaded (sequence : Value) : WireBundle :=
  { (bundle 0).toWire with sequence := sequence, links := [fiber0.toWire] }

theorem loadBundleJson_policyFile (sequence : Value) :
    loadBundleJson (policyFile sequence) (clock 0) = .ok (loaded sequence) := by
  have hend : (clock 0).add 21600000000 = .ok (clock 21600) := DateTime.ofUs_eq_ok.mpr rfl
  show ((clock 0).add 21600000000 >>= fun notAfter =>
    .ok { loaded sequence with notAfter := notAfter }) = _
  rw [hend]
  rfl

/-- The authority publishes what it loaded. -/
def fileMessage (sequence : Value) : Envelope :=
  signed standIn msgPolicyBundle "authority-1" (clock 0) (List.replicate 16 1)
    (encodeBundle standIn (loaded sequence)) signer.key

theorem decodeBundle_loaded {sequence : Value} (h : sequence.plain = true) :
    decodeBundle standIn (.bytes (encodeBundle standIn (loaded sequence))) =
      .ok (loaded sequence) := by
  have hplain : (loaded sequence).fields.plain = true := by
    simp [loaded, bundle, fiber0, TrafficClass.ofId, PolicyBundle.toWire, Link.toWire,
      TrafficClass.toWire, Rule.toWire, PolicyBundle.fields, encodeList, encodeLink, encodeClass,
      encodeRule, ts, OnWire.value, h]
  rw [decodeBundle, Runtime.loadsValue, encodeBundle, lawful_standIn.loads_dumps _ hplain]
  show (do
    let issuedAt ← (clock 0).cut
    let notAfter ← (clock 21600).cut
    return { loaded sequence with issuedAt := issuedAt, notAfter := notAfter }) = _
  rw [cut_clock, cut_clock]
  rfl

/-- A store of the site admits a bundle with any number above its own sequence. -/
theorem admitted_file {s : BundleStore standIn} (hkey : s.trustedKey = standIn.publicKey signer.key)
    (hissuer : s.expectedIssuer = "authority-1") (hunseen : s.seenNonces = []) {sequence : Value}
    (hplain : sequence.plain = true) (hnewer : sequence.le s.sequence = .ok false) :
    s.Admitted (encodeEnvelope standIn (fileMessage sequence)) (clock 60) (fileMessage sequence)
      (loaded sequence) where
  decoded := by
    rw [fileMessage, decodeEnvelope_encodeEnvelope lawful_standIn plain_signed]
    show (clock 0).cut.map _ = _
    rw [cut_clock]
    rfl
  typed := rfl
  issued := by rw [hissuer]; rfl
  stamped := timestamp_cut_le_horizon (by decide : (clock 0).us ≤ (clock 60).us) (cut_clock 0)
  verified := by rw [hkey]; exact verify_sign lawful_standIn List.length_replicate rfl
  searchable := rfl
  unseen := by rw [hunseen]; rfl
  payload := decodeBundle_loaded hplain
  authority := by rw [hissuer]; rfl
  newer := hnewer
  valid := by
    show (clock 60).us < (clock 21600).us
    decide

/-- No mark is on file, and then the one of a bundle. -/
def markFile (mark : Option Value) : EpochFile :=
  ⟨"epoch", mark.map fun v => v.text.toList ++ ['\n'], []⟩

/-- A site that starts without a mark accepts any number above -1 and writes it. -/
theorem accept_file (sequence : Value) (hplain : sequence.plain = true)
    (hprintable : sequence.printable = true) (hnewer : sequence.le (.int noEpoch) = .ok false) :
    ∃ start s', BundleStore.init (standIn.publicKey signer.key) "authority-1" "site-1" signedFloor
        none (.file (markFile none)) none = .ok start ∧
      start.accept (.file (markFile none)) {} (encodeEnvelope standIn (fileMessage sequence))
        (clock 60) = (.ok (loaded sequence), s', .file (markFile (some sequence))) ∧
      s' = start.install (loaded sequence) (.bytes (List.replicate 16 1)) ∧
      start.trustedKey = standIn.publicKey signer.key ∧ start.expectedIssuer = "authority-1" ∧
      start.seenNonces = [] := by
  have hread : (EpochStore.file (markFile none)).read = .ok (.int noEpoch) := rfl
  obtain ⟨floor, hstart⟩ := init_ok hread
  have hadmitted := admitted_file (s := ⟨standIn.publicKey signer.key, "authority-1", "site-1",
    floor, none, .int noEpoch, []⟩) rfl rfl rfl hplain hnewer
  have hcommit : (EpochStore.file (markFile none)).commit {} (loaded sequence).sequence =
      (.ok (), .file (markFile (some sequence))) := by
    have hfound : (EpochFaults.read {}).elim (EpochStore.file (markFile none)).read .error =
        .ok (.int noEpoch) := hread
    exact Host.commit_written hfound hnewer rfl hprintable
  have haccept := BundleStore.accept_of_admitted hadmitted rfl (congrArg Prod.fst hcommit)
  rw [hcommit] at haccept
  exact ⟨_, _, hstart, haccept, rfl, rfl, rfl, rfl⟩

/-- What a policy file has for a sequence of 1.5. -/
def fraction : Value := .float (.fin (3 / 2))

theorem read_fraction : (EpochStore.file (markFile (some fraction))).read =
    .error (epochUnreadable "epoch" ['1', '.', '5']) := by
  have htext : strip (fraction.text.toList ++ ['\n']) = ['1', '.', '5'] := by decide +kernel
  have hparse : intOf? ['1', '.', '5'] = none := by decide +kernel
  simp only [EpochStore.read, markFile, Option.map_some, htext, hparse]

end Sample

/-- A site accepts the sequence 1.5 and writes it, and then can neither accept a bundle nor start. -/
theorem fractional_mark : ∃ start s', BundleStore.init (standIn.publicKey Sample.signer.key)
      "authority-1" "site-1" Sample.signedFloor none (.file (Sample.markFile none)) none =
      .ok start ∧
    loadBundleJson (Sample.policyFile Sample.fraction) (Sample.clock 0) =
      .ok (Sample.loaded Sample.fraction) ∧
    start.accept (.file (Sample.markFile none)) {}
      (encodeEnvelope standIn (Sample.fileMessage Sample.fraction)) (Sample.clock 60) =
      (.ok (Sample.loaded Sample.fraction), s',
        .file (Sample.markFile (some Sample.fraction))) ∧
    (EpochStore.file (Sample.markFile (some Sample.fraction))).read =
      .error (epochUnreadable "epoch" ['1', '.', '5']) ∧
    (s'.accept (.file (Sample.markFile (some Sample.fraction))) {} (Sample.envelope 2 2)
      (Sample.clock 60)).1 = .error (epochUnreadable "epoch" ['1', '.', '5']) ∧
    ∃ e, BundleStore.init (standIn.publicKey Sample.signer.key) "authority-1" "site-1"
      Sample.signedFloor none (.file (Sample.markFile (some Sample.fraction))) none = .error e := by
  obtain ⟨start, s', hstart, haccept, rfl, hkey, hissuer, hunseen⟩ :=
    Sample.accept_file Sample.fraction rfl rfl (by decide +kernel)
  have hread := Sample.read_fraction
  refine ⟨start, _, hstart, Sample.loadBundleJson_policyFile _, haccept, hread, ?_, ?_⟩
  · obtain ⟨envelope, hadmitted, -⟩ := Sample.admitted 2 2 (s := start.install
      (Sample.loaded Sample.fraction) (.bytes (List.replicate 16 1))) hkey hissuer
      (by rw [BundleStore.install_seenNonces, hunseen]; rfl)
      (by decide : (Sample.clock 0).us ≤ (Sample.clock 60).us) (by decide)
      (by rw [BundleStore.install_sequence]; decide +kernel)
    have hcommit : (EpochStore.file (Sample.markFile (some Sample.fraction))).commit {} (.int 2) =
        (.error (epochUnreadable "epoch" ['1', '.', '5']), _) := Host.commit_unread _ hread
    rw [BundleStore.accept_of_uncommitted hadmitted (congrArg Prod.fst hcommit)]
  · cases hinit : BundleStore.init (standIn.publicKey Sample.signer.key) "authority-1" "site-1"
      Sample.signedFloor none (.file (Sample.markFile (some Sample.fraction))) none with
    | error e => exact ⟨e, rfl⟩
    | ok s =>
      obtain ⟨-, sequence, -, -, hok, -⟩ := BundleStore.init_ok.mp hinit
      rw [hread] at hok
      cases hok

theorem read_back_iff_sample : ∃ mark : Int,
    (EpochStore.file (Sample.markFile none)).read = .ok (.int mark) ∧
    ((∃ v, (EpochStore.file (Sample.markFile (some (.int 1)))).read = .ok v ∧
        (Sample.loaded (.int 1)).sequence.eq v = true) ↔
      (∃ n, (Sample.loaded (.int 1)).sequence = .int n ∧ mark < n) ∨
        (Sample.loaded (.int 1)).sequence.eq (.int mark) = true) ∧
    ((∃ e, (EpochStore.file (Sample.markFile (some (.int 1)))).read = .error e) ↔
      (Sample.loaded (.int 1)).sequence.le (.int mark) = .ok false ∧
        ∀ n, (Sample.loaded (.int 1)).sequence ≠ .int n) := by
  obtain ⟨start, s', -, haccept, -⟩ := Sample.accept_file (.int 1) rfl (by decide +kernel) rfl
  exact read_back_iff haccept

end Pilotfish
