import Pilotfish.Restarts

/-!
# What a recovered log may hold

A chain is rebuilt from any log whose lines verify under the site's key and read as receipts that
are linked. What a line was signed as, and what else its payload holds, is not asked.

Results:
1. `EligibilityDecision.fields_of_exact`, `body_iff`: what is written again as it was read.
2. `exactLine_receiptBytes`: what a chain records is written so.
3. `own_lines_iff`: which recovered logs hold only what a chain of the site writes.
-/

namespace Pilotfish
open Python

variable {rt : Runtime}

/-! ## The exact structure -/

def ExactExclusion (v : Value) : Prop := ∃ linkId ruleId reason, v = .list [linkId, ruleId, reason]

def ExactEligibility (v : Value) : Prop :=
  ∃ classId permitted exclusions, v = .list [classId, .list permitted, .list exclusions] ∧
    ∀ e ∈ exclusions, ExactExclusion e

/-- Seven elements, the instants integers. -/
def ExactDecision (v : Value) : Prop :=
  ∃ siteId decidedAt validUntil bundleHash evidenceHash degraded classes,
    v = .list [siteId, .int decidedAt, .int validUntil, bundleHash, evidenceHash, degraded,
      .list classes] ∧
    ∀ c ∈ classes, ExactEligibility c

/-- The bytes are the canonical encoding of a value. -/
def Canonical (rt : Runtime) (data : Bytes) (v : Value) : Prop :=
  rt.loads data = .ok v ∧ rt.encoding v = data

/-- The canonical encoding of eight elements, one of which is that of a decision. -/
def ExactBody (rt : Runtime) (data : Bytes) : Prop :=
  ∃ siteId seq prevHash kind inner outcome observedStateHash detail decision,
    Canonical rt data (.list [siteId, seq, prevHash, kind, .bytes inner, outcome, observedStateHash,
      detail]) ∧
    Canonical rt inner decision ∧ ExactDecision decision

/-! ### What is written is exact -/

theorem exact_encodeEligibility (c : ClassEligibility Value) :
    ExactEligibility (encodeEligibility c) := by
  refine ⟨_, _, _, rfl, ?_⟩
  intro e he
  obtain ⟨exclusion, -, rfl⟩ := List.mem_map.mp he
  exact ⟨_, _, _, rfl⟩

theorem EligibilityDecision.exact_fields (d : WireDecision) : ExactDecision d.fields := by
  refine ⟨_, _, _, _, _, _, _, rfl, ?_⟩
  intro c hc
  obtain ⟨cls, -, rfl⟩ := List.mem_map.mp hc
  exact exact_encodeEligibility cls

/-! ### What is exact is written again as it was read -/

theorem map_of_exact {α : Type} {decode : Value → Except Exc α} {encode : α → Value}
    {Exact : Value → Prop} (h : ∀ {v a}, Exact v → decode v = .ok a → encode a = v)
    {vs : List Value} {as : List α} (hexact : ∀ v ∈ vs, Exact v) (hdecode : vs.mapM decode = .ok as) :
    as.map encode = vs := by
  have hpairs := mapM_eq_ok_iff.mp hdecode
  clear hdecode
  induction hpairs with
  | nil => rfl
  | cons hv _ ih =>
    obtain ⟨hfirst, hrest⟩ := List.forall_mem_cons.mp hexact
    rw [List.map_cons, h hfirst hv, ih hrest]

theorem encodeExclusion_of_exact {v : Value} {e : Exclusion Value} (hv : ExactExclusion v)
    (h : decodeExclusion v = .ok e) : encodeExclusion e = v := by
  obtain ⟨linkId, ruleId, reason, rfl⟩ := hv
  cases h
  rfl

theorem encodeEligibility_of_exact {v : Value} {c : ClassEligibility Value} (hv : ExactEligibility v)
    (h : decodeEligibility v = .ok c) : encodeEligibility c = v := by
  obtain ⟨classId, permitted, exclusions, rfl, hexclusions⟩ := hv
  obtain ⟨decoded, hdecoded, hret⟩ := bind_eq_ok_iff.mp
    (show (exclusions.mapM decodeExclusion >>= fun exclusions =>
      .ok (⟨classId, permitted, exclusions⟩ : ClassEligibility Value)) = .ok c from h)
  cases hret
  have hmap := map_of_exact encodeExclusion_of_exact hexclusions hdecoded
  show Value.list [classId, .list (permitted.map id), .list (decoded.map encodeExclusion)] = _
  rw [hmap, List.map_id]

theorem EligibilityDecision.fields_of_exact {inner : Bytes} {w : Value} {d : WireDecision}
    (hload : rt.loads inner = .ok w) (hw : ExactDecision w)
    (h : decodeDecision rt (.bytes inner) = .ok d) : d.fields = w := by
  obtain ⟨siteId, decidedAt, validUntil, bundleHash, evidenceHash, degraded, classes, rfl,
    hclasses⟩ := hw
  rw [decodeDecision, Runtime.loadsValue, hload] at h
  obtain ⟨decided, hdecided, h⟩ := bind_eq_ok_iff.mp
    (show (DateTime.fromtimestamp (.int decidedAt) >>= fun decided => do
      let valid ← DateTime.fromtimestamp (.int validUntil)
      let classes ← classes.mapM decodeEligibility
      return (⟨siteId, decided, valid, bundleHash, evidenceHash, degraded, classes⟩ :
        WireDecision)) = .ok d from h)
  obtain ⟨valid, hvalid, h⟩ := bind_eq_ok_iff.mp h
  obtain ⟨decoded, hdecoded, hret⟩ := bind_eq_ok_iff.mp h
  cases hret
  have hmap := map_of_exact encodeEligibility_of_exact hclasses hdecoded
  show Value.list [siteId, ts decided, ts valid, bundleHash, evidenceHash, degraded,
    .list (decoded.map encodeEligibility)] = _
  rw [ts, ts, DateTime.seconds_ofSeconds hdecided, DateTime.seconds_ofSeconds hvalid, hmap]

/-! ## A receipt and its payload -/

/-- What is encoded of a receipt decodes as it was. -/
def Faithful (rt : Runtime) (r : Receipt Value Value) : Prop :=
  rt.loads (rt.encoding (r.body rt)) = .ok (r.body rt) ∧
    rt.loads (rt.encoding r.decision.fields) = .ok r.decision.fields

/-- A payload is the encoding of the receipt that is read of it exactly when its structure is. -/
theorem body_iff {data : Bytes} {v : Value} {r : Receipt Value Value}
    (hload : rt.loads data = .ok v) (hread : receiptFromBody rt v = .ok r)
    (faithful : Faithful rt r) : data = rt.encoding (r.body rt) ↔ ExactBody rt data := by
  constructor
  · rintro rfl
    exact ⟨_, _, _, _, _, _, _, _, _, ⟨faithful.1, rfl⟩, ⟨faithful.2, rfl⟩,
      r.decision.exact_fields⟩
  · rintro ⟨siteId, seq, prevHash, kind, inner, outcome, observedStateHash, detail, w,
      ⟨hdata, hdumps⟩, ⟨hinner, hinnerDumps⟩, hexact⟩
    cases hload.symm.trans hdata
    obtain ⟨d, hd, hret⟩ := bind_eq_ok_iff.mp
      (show (decodeDecision rt (.bytes inner) >>= fun d => .ok (⟨siteId, seq, prevHash, kind, d,
        outcome, observedStateHash, detail⟩ : Receipt Value Value)) = .ok r from hread)
    cases hret
    have hfields := EligibilityDecision.fields_of_exact hinner hexact hd
    rw [← hdumps, Receipt.body, encodeDecision, hfields, hinnerDumps]

/-! ## A line -/

/-- The envelope of a line and the receipt that is read of it. -/
structure LineReads (rt : Runtime) (line : Bytes) (envelope : Envelope) (v : Value)
    (r : Receipt Value Value) : Prop where
  decoded : decodeEnvelope rt line = .ok envelope
  loaded : rt.loadsValue envelope.payload = .ok v
  read : receiptFromBody rt v = .ok r

/-- The line is one that the chain of a site writes. -/
def OwnLine (rt : Runtime) (siteId : String) (line : Bytes) : Prop :=
  ∃ envelope v r, LineReads rt line envelope v r ∧
    envelope.msgType = .str msgDecisionReceipt ∧ envelope.issuer = .str siteId ∧
    envelope.nonce = .bytes ((rt.sha256 (rt.encoding (r.body rt))).take nonceBytes) ∧
    envelope.payload = .bytes (rt.encoding (r.body rt))

/-- A receipt of the site by its envelope, under the digest of a payload of exact structure. -/
def ExactLine (rt : Runtime) (siteId : String) (line : Bytes) : Prop :=
  ∃ envelope data, decodeEnvelope rt line = .ok envelope ∧
    envelope.msgType = .str msgDecisionReceipt ∧ envelope.issuer = .str siteId ∧
    envelope.nonce = .bytes ((rt.sha256 data).take nonceBytes) ∧ envelope.payload = .bytes data ∧
    ExactBody rt data

/-- A line has one reading. -/
theorem LineReads.unique {line : Bytes} {envelope envelope' : Envelope} {v v' : Value}
    {r r' : Receipt Value Value} (h : LineReads rt line envelope v r)
    (h' : LineReads rt line envelope' v' r') : r = r' := by
  cases h.decoded.symm.trans h'.decoded
  cases h.loaded.symm.trans h'.loaded
  exact Except.ok.inj (h.read.symm.trans h'.read)

section Line
variable {siteId : String} {line : Bytes}

theorem ownLine_iff {envelope : Envelope} {v : Value} {r : Receipt Value Value}
    (hline : LineReads rt line envelope v r) (faithful : Faithful rt r) :
    OwnLine rt siteId line ↔ ExactLine rt siteId line := by
  constructor
  · rintro ⟨envelope', v', r', hline', htype, hissuer, hnonce, hpayload⟩
    obtain rfl := hline.unique hline'
    cases hline.decoded.symm.trans hline'.decoded
    refine ⟨envelope, _, hline.decoded, htype, hissuer, hnonce, hpayload, ?_⟩
    have hload := hline.loaded
    rw [hpayload] at hload
    exact (body_iff hload hline.read faithful).mp rfl
  · rintro ⟨envelope', data, hdecode, htype, hissuer, hnonce, hpayload, hexact⟩
    cases hline.decoded.symm.trans hdecode
    have hload := hline.loaded
    rw [hpayload] at hload
    have hdata := (body_iff hload hline.read faithful).mpr hexact
    rw [hdata] at hnonce hpayload
    exact ⟨envelope, v, r, hline, htype, hissuer, hnonce, hpayload⟩

theorem readReceipt_lineReads {publicKey : rt.PublicKey} {index : Nat} {r : Receipt Value Value}
    (h : readReceipt rt publicKey index line = .ok r) :
    ∃ envelope v, LineReads rt line envelope v r := by
  obtain ⟨envelope, v, hdecode, -, hload, hread⟩ := readReceipt_ok.mp h
  exact ⟨envelope, v, hdecode, hload, hread⟩

theorem readFrom_lineReads {publicKey : rt.PublicKey} {index : Nat} {lines : List Bytes}
    {receipts : List (Receipt Value Value)}
    (h : readFrom rt publicKey index lines = .ok receipts) (hmem : line ∈ lines) :
    ∃ envelope v r, LineReads rt line envelope v r := by
  induction lines generalizing index receipts with
  | nil => cases hmem
  | cons first lines ih =>
    obtain ⟨r, hr, h⟩ := bind_eq_ok_iff.mp h
    obtain ⟨rest, hrest, -⟩ := bind_eq_ok_iff.mp h
    rcases List.mem_cons.mp hmem with rfl | hmem
    · obtain ⟨envelope, v, hline⟩ := readReceipt_lineReads hr
      exact ⟨envelope, v, r, hline⟩
    · exact ih hrest hmem

end Line

/-- A recovered log holds only what a chain of the site writes exactly when each of its lines is a
receipt of the site by its envelope and has the exact structure. -/
theorem own_lines_iff {sink : ReadableSink} {s : sink.State} {key : rt.PrivateKey} {siteId : String}
    {chain : ReceiptChain rt} {lines : List Bytes} (hlog : sink.readAll s = .ok lines)
    (hrecover : ReceiptChain.recover sink s key siteId = .ok chain)
    (faithful : ∀ line ∈ lines, ∀ envelope v r, LineReads rt line envelope v r → Faithful rt r) :
    (∀ line ∈ lines, OwnLine rt siteId line) ↔ ∀ line ∈ lines, ExactLine rt siteId line := by
  obtain ⟨lines', hlines, h⟩ := bind_eq_ok_iff.mp hrecover
  cases hlog.symm.trans hlines
  obtain ⟨receipts, hread, -⟩ := bind_eq_ok_iff.mp h
  refine forall₂_congr ?_
  intro line hmem
  obtain ⟨envelope, v, r, hline⟩ := readFrom_lineReads hread hmem
  exact ownLine_iff hline (faithful line hmem envelope v r hline)

/-! ## What a chain records -/

section Recorded
variable (laws : rt.Lawful) {chain : ReceiptChain rt} {seq : Int} {entry : Entry}
  (hentry : entry.Readable) (hdetail : entry.detail.Encodable)
include laws hentry hdetail

/-- What a chain records has the exact structure. -/
theorem exactLine_receiptBytes : ExactLine rt chain.siteId
    (receiptBytes chain entry.now (chain.receipt (.int seq) entry)) := by
  obtain ⟨t, ht⟩ := (DateTime.fromtimestamp_seconds _).mpr hentry.now
  obtain ⟨c, hc⟩ := (EligibilityDecision.cut_ok _).mpr ⟨hentry.decidedAt, hentry.validUntil⟩
  have hplain : ((chain.receipt (.int seq) entry).body rt).plain = true :=
    ReceiptChain.plain_receipt rfl hdetail
  refine ⟨_, _, decodeEnvelope_signed laws ht, rfl, rfl, rfl, rfl, _, _, _, _, _, _, _, _, _,
    ⟨laws.loads_dumps _ hplain, rfl⟩, ⟨laws.loads_dumps _ entry.decision.plain_fields, rfl⟩, ?_⟩
  show ExactDecision entry.decision.fields
  rw [← EligibilityDecision.fields_of_cut hc]
  exact c.toWire.exact_fields

/-- What is read of it encodes as it was encoded. -/
theorem faithful_receiptBytes {envelope : Envelope} {v : Value} {r : Receipt Value Value}
    (h : LineReads rt (receiptBytes chain entry.now (chain.receipt (.int seq) entry)) envelope v
      r) : Faithful rt r := by
  obtain ⟨t, ht⟩ := (DateTime.fromtimestamp_seconds _).mpr hentry.now
  obtain ⟨c, hc⟩ := (EligibilityDecision.cut_ok _).mpr ⟨hentry.decidedAt, hentry.validUntil⟩
  have hback := readReceipt_receiptBytes laws chain seq hdetail 0
  rw [ht, hc] at hback
  obtain ⟨envelope', v', h'⟩ := readReceipt_lineReads hback
  obtain rfl : r = (chain.receipt (.int seq) entry).readBack c := h.unique h'
  have hfields : c.toWire.fields = entry.decision.fields := EligibilityDecision.fields_of_cut hc
  constructor
  · have hbody : ((chain.receipt (.int seq) entry).readBack c).body rt =
        (chain.receipt (.int seq) entry).body rt := Receipt.body_readBack hc
    have hplain : ((chain.receipt (.int seq) entry).body rt).plain = true :=
      ReceiptChain.plain_receipt rfl hdetail
    rw [hbody]
    exact laws.loads_dumps _ hplain
  · refine laws.loads_dumps _ ?_
    show c.toWire.fields.plain = true
    rw [hfields]
    exact entry.decision.plain_fields

end Recorded

/-- A line is read under the key it was signed with, whatever it was signed as. -/
theorem readReceipt_signed (laws : rt.Lawful) {msgType issuer : String} {issuedAt t : DateTime}
    {nonce payload : Bytes} {key : rt.PrivateKey} (hnonce : nonce.length = nonceBytes)
    (ht : issuedAt.cut = .ok t) {v : Value} (hload : rt.loads payload = .ok v)
    {r : Receipt Value Value} (hread : receiptFromBody rt v = .ok r) (index : Nat) :
    readReceipt rt (rt.publicKey key) index (encodeEnvelope rt
      (signed rt msgType issuer issuedAt nonce payload key)) = .ok r := by
  rw [readReceipt_of_verified (decodeEnvelope_signed laws ht)
    (verify_sign laws hnonce (DateTime.cut_seconds ht))]
  show rt.loads payload >>= _ = _
  rw [hload]
  exact hread

namespace Sample

/-- The first receipt of the site. -/
def ownReceipt : Receipt :=
  (ReceiptChain.new "site-1" siteKey : ReceiptChain standIn).receipt (.int 1) (entry 0 (clock 60))

theorem plain_ownReceipt : (ownReceipt.body standIn).plain = true :=
  ReceiptChain.plain_receipt rfl ⟨"", rfl⟩

theorem cut_ownReceipt : ownReceipt.decision.cut = .ok ownReceipt.decision := by
  rw [EligibilityDecision.cut]
  show (do
    let decidedAt ← (clock 0).cut
    let validUntil ← (clock 60).cut
    return { ownReceipt.decision with decidedAt := decidedAt, validUntil := validUntil }) = _
  rw [cut_clock, cut_clock]
  rfl

/-- An observation batch of another site, by its envelope, signed with the key of this one; the
payload has nine elements, eight of which are the receipt's. -/
def strayPayload : Value :=
  match ownReceipt.body standIn with
  | .list fields => .list (fields ++ [.str "surplus"])
  | v => v

def strayLine : Bytes :=
  encodeEnvelope standIn (signed standIn msgObservationBatch "site-2" (clock 0)
    (List.replicate 16 0) (standIn.encoding strayPayload) siteKey)

theorem readReceipt_strayLine (index : Nat) :
    readReceipt standIn (standIn.publicKey siteKey) index strayLine =
      .ok (ownReceipt.readBack ownReceipt.decision) := by
  have hload : standIn.loads (standIn.encoding strayPayload) = .ok strayPayload := by
    refine lawful_standIn.loads_dumps _ ?_
    simp [strayPayload, Receipt.body, ownReceipt, ReceiptChain.receipt, entry, Text.value]
  refine readReceipt_signed lawful_standIn List.length_replicate (cut_clock 0) hload ?_ index
  -- the ninth element is never looked at
  show receiptFromBody standIn (ownReceipt.body standIn) = _
  rw [receiptFromBody_body lawful_standIn, cut_ownReceipt]
  rfl

/-- The chain that is rebuilt from it. -/
def strayChain : ReceiptChain standIn where
  siteId := "site-1"
  key := siteKey
  seq := .int 1
  prevHash := (ownReceipt.readBack ownReceipt.decision).hash standIn

theorem chained_strayLine :
    Chained [strayLine] [ownReceipt.readBack ownReceipt.decision] strayChain where
  read := by
    show (readReceipt standIn (standIn.publicKey siteKey) 0 strayLine >>= _) = _
    rw [readReceipt_strayLine]
    rfl
  length := rfl
  own := by
    intro r hr
    rw [List.mem_singleton.mp hr]
    rfl
  linked := ⟨⟨Value.eq_int_int 1 1, rfl⟩, trivial⟩
  encoded := by
    intro r hr
    rw [List.mem_singleton.mp hr]
    exact Receipt.encodes_readBack cut_ownReceipt (Receipt.encodes_of_plain plain_ownReceipt)
  seq := rfl
  numbered := by
    intro r hr
    cases hr
    rfl
  prevHash := rfl

/-- What the payload holds is not the body of a receipt. -/
theorem strayPayload_ne :
    standIn.encoding strayPayload ≠ standIn.encoding (ownReceipt.body standIn) := by
  intro h
  have hstray := lawful_standIn.loads_dumps strayPayload
    (by simp [strayPayload, Receipt.body, ownReceipt, ReceiptChain.receipt, entry, Text.value])
  have hbody := lawful_standIn.loads_dumps (ownReceipt.body standIn) plain_ownReceipt
  rw [h, hbody] at hstray
  simp [strayPayload, Receipt.body] at hstray

end Sample

/-- A batch of another site with a receipt and more for its payload is recovered as a log. -/
theorem stray_line_recovered : ∃ chain, ReceiptChain.recover memoryReceiptSink
      ([Sample.strayLine] : List Bytes) Sample.siteKey "site-1" = .ok chain ∧
    (∃ envelope v r, LineReads standIn Sample.strayLine envelope v r ∧
      envelope.msgType = .str msgObservationBatch ∧ envelope.issuer = .str "site-2" ∧
      envelope.payload ≠ .bytes (standIn.encoding (r.body standIn))) ∧
    ¬OwnLine standIn "site-1" Sample.strayLine := by
  have hdecode : decodeEnvelope standIn Sample.strayLine = .ok _ :=
    decodeEnvelope_signed lawful_standIn (Sample.cut_clock 0)
  have hlog : memoryReceiptSink.readAll ([Sample.strayLine] : List Bytes) = .ok [Sample.strayLine] :=
    rfl
  refine ⟨_, Sample.chained_strayLine.recover hlog, ?_, ?_⟩
  · obtain ⟨envelope, v, hline⟩ := readReceipt_lineReads (Sample.readReceipt_strayLine 0)
    refine ⟨envelope, v, _, hline, ?_⟩
    cases hdecode.symm.trans hline.decoded
    refine ⟨rfl, rfl, ?_⟩
    intro hpayload
    exact Sample.strayPayload_ne (Value.bytes.inj hpayload)
  · rintro ⟨envelope, v, r, hline, htype, -⟩
    cases hdecode.symm.trans hline.decoded
    exact absurd (Value.str.inj htype) (by decide)

/-- A log with one recorded receipt holds only that. -/
theorem own_lines_sample : ∃ line, ReceiptChain.recover memoryReceiptSink ([line] : List Bytes)
      Sample.siteKey "site-1" =
        .ok ((ReceiptChain.new "site-1" Sample.siteKey : ReceiptChain standIn).advance
          Sample.ownReceipt) ∧
    ∀ l ∈ [line], OwnLine standIn "site-1" l := by
  have hentry := Sample.readable_entry 0
  have hdetail : (Sample.entry 0 (Sample.clock 60)).detail.Encodable := ⟨"", rfl⟩
  have hnew : Chained [] [] (ReceiptChain.new "site-1" Sample.siteKey : ReceiptChain standIn) :=
    Chained.new "site-1" Sample.siteKey
  obtain ⟨c, -, hchained⟩ := hnew.record lawful_standIn hentry hdetail
  have hrecover : ReceiptChain.recover memoryReceiptSink ([_] : List Bytes) Sample.siteKey "site-1" =
      .ok _ := hchained.recover rfl
  refine ⟨_, hrecover, (own_lines_iff rfl hrecover ?_).mpr ?_⟩
  · intro line hline envelope v r h
    rw [List.mem_singleton.mp hline] at h
    exact faithful_receiptBytes lawful_standIn hentry hdetail h
  · intro line hline
    rw [List.mem_singleton.mp hline]
    exact exactLine_receiptBytes lawful_standIn hentry hdetail

end Pilotfish
