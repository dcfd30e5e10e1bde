import Pilotfish.Envelope
import Pilotfish.FileSink
import Pilotfish.HashChain

/-!
# The audit trail

A receipt is one step in the life of a decision, numbered and linked to the receipt before it.
A chain writes receipts to a sink; after a restart it is rebuilt from what the sink holds.

Results:
1. `verifyChain_ok`: the receipts that are accepted form a hash chain and can be encoded.
2. `record_eq`, `record_cases`: what recording does, whatever the sink does.
3. `readReceipt_ok`: what a line that is read as a receipt has passed.
4. `readReceipt_receiptBytes`: what is read back of a receipt that was written.
-/

namespace Pilotfish
open Python

def genesisHash : String := String.ofList (List.replicate 64 '0')

def kindDecision : String := "DECISION"
def kindExecution : String := "EXECUTION"
def kindEffect : String := "EFFECT"

def outcomeEnforced : String := "ENFORCED"
def outcomePostconditionFailed : String := "POSTCONDITION_FAILED"
def outcomeEnforcementError : String := "ENFORCEMENT_ERROR"

/-- A run of receipts is not a contiguous, correctly linked, verifiable chain. -/
def chainBroken (message : String) : Exc := ⟨.user "ChainBroken", message⟩

/-- A receipt; its fields are objects, since one that was read back may hold any. -/
structure Receipt (S : Type := String) (B : Type := Bool) where
  siteId : Value
  seq : Value
  prevHash : Value
  kind : Value
  decision : EligibilityDecision S B
  outcome : Value
  observedStateHash : Value
  detail : Value

variable (rt : Runtime)

section Body
variable {S B : Type} [OnWire S] [OnWire B]

def Receipt.body (r : Receipt S B) : Value :=
  .list [r.siteId, r.seq, r.prevHash, r.kind, .bytes (encodeDecision rt r.decision), r.outcome,
    r.observedStateHash, r.detail]

/-- `dumps(self.body())`, the decision in it encoded first. -/
def Receipt.dumps (r : Receipt S B) : Except Exc Bytes := do
  let _ ← rt.dumps r.decision.fields
  rt.dumps (r.body rt)

/-- The hash of a receipt that is encoded. -/
def Receipt.hash (r : Receipt S B) : String := rt.digest (r.body rt)

/-- Raises `ChainBroken` unless the receipts go on from a hash and a number. -/
def verifyFrom (expectedPrev : String) (expectedSeq : Int) : List (Receipt S B) → Except Exc Unit
  | [] => .ok ()
  | receipt :: receipts => do
      raiseIf (!receipt.seq.eq (.int expectedSeq))
        (chainBroken ("expected sequence " ++ (Value.int expectedSeq).text ++ ", found " ++
          receipt.seq.text))
      raiseIf (!receipt.prevHash.eq (.str expectedPrev))
        (chainBroken ("receipt " ++ receipt.seq.text ++ " does not link to its predecessor"))
      let _ ← receipt.dumps rt
      verifyFrom (receipt.hash rt) (expectedSeq + 1) receipts

def verifyChain (receipts : List (Receipt S B)) : Except Exc Unit :=
  verifyFrom rt genesisHash 1 receipts

end Body

/-! ## Reading -/

def receiptFromBody (fields : Value) : Except Exc (Receipt Value Value) := do
  return {
    siteId := ← fields.getItem 0
    seq := ← fields.getItem 1
    prevHash := ← fields.getItem 2
    kind := ← fields.getItem 3
    decision := ← decodeDecision rt (← fields.getItem 4)
    outcome := ← fields.getItem 5
    observedStateHash := ← fields.getItem 6
    detail := ← fields.getItem 7 }

/-- Decode and verify one line of a log. -/
def readReceipt (publicKey : rt.PublicKey) (index : Nat) (line : Bytes) :
    Except Exc (Receipt Value Value) := do
  let envelope ← decodeEnvelope rt line
  match verify rt envelope publicKey with
  | .ok () => receiptFromBody rt (← rt.loadsValue envelope.payload)
  | .error e =>
      if Exc.isSignatureInvalid e then .error (chainBroken ("receipt " ++
        String.ofList (decimal (index + 1)) ++ " does not verify: " ++ e.message))
      else .error e

def readFrom (publicKey : rt.PublicKey) (index : Nat) :
    List Bytes → Except Exc (List (Receipt Value Value))
  | [] => .ok []
  | line :: lines => do
      let receipt ← readReceipt rt publicKey index line
      return receipt :: (← readFrom publicKey (index + 1) lines)

/-- Decode and verify every receipt in a log. -/
def readChain (lines : List Bytes) (publicKey : rt.PublicKey) :
    Except Exc (List (Receipt Value Value)) := readFrom rt publicKey 0 lines

/-! ## Writing -/

/-- Produces signed, linked receipts; the sink they are handed to is apart. -/
structure ReceiptChain where
  siteId : String
  key : rt.PrivateKey
  seq : Value
  prevHash : String

variable {rt}

namespace ReceiptChain

/-- A chain with nothing written. -/
def new (siteId : String) (key : rt.PrivateKey) : ReceiptChain rt :=
  ⟨siteId, key, .int 0, genesisHash⟩

def head (chain : ReceiptChain rt) : Value × String := (chain.seq, chain.prevHash)

/-- Refuse a log some of whose receipts another site wrote. -/
def refuseForeign (siteId : String) (receipts : List (Receipt Value Value)) : Except Exc Unit := do
  match ← Value.setMinus (receipts.map (·.siteId)) [.str siteId] with
  | [] => return ()
  | foreign =>
      let ids ← Value.sorted foreign
      .error (chainBroken ("log belongs to site " ++ (Value.list ids).quoted ++
        ", refusing to append as " ++ (Value.str siteId).quoted))

/-- Resume an existing log, or start a new one if there is nothing there. -/
def recover (sink : ReadableSink) (s : sink.State) (key : rt.PrivateKey) (siteId : String) :
    Except Exc (ReceiptChain rt) := do
  let lines ← sink.readAll s
  let receipts ← readChain rt lines (rt.publicKey key)
  match receipts.getLast? with
  | none => return new siteId key
  | some last =>
      -- an empty log is anybody's
      refuseForeign siteId receipts
      verifyChain rt receipts
      return { siteId := siteId, key := key, seq := last.seq, prevHash := last.hash rt }

end ReceiptChain

/-- What is recorded of a decision. -/
structure Entry where
  decision : EligibilityDecision
  now : DateTime
  kind : String := kindDecision
  outcome : String := ""
  observedStateHash : String := ""
  /-- The one text that is not the program's own. -/
  detail : Text := .characters ""

/-- The receipt a chain writes for an entry under a number. -/
def ReceiptChain.receipt (chain : ReceiptChain rt) (seq : Value) (entry : Entry) : Receipt where
  siteId := .str chain.siteId
  seq := seq
  prevHash := .str chain.prevHash
  kind := .str entry.kind
  decision := entry.decision
  outcome := .str entry.outcome
  observedStateHash := .str entry.observedStateHash
  detail := entry.detail.value

/-- Sign the next receipt, append it, and only then move the head. -/
def record (sink : ReadableSink) (entry : Entry) :
    Effect Exc (sink.State × ReceiptChain rt) Receipt := do
  let chain ← Effect.read Prod.snd
  let seq ← Effect.lift chain.seq.succ
  let receipt := chain.receipt seq entry
  let body ← Effect.lift (receipt.dumps rt)
  -- the nonce is derived from the receipt hash
  let digest ← Effect.lift (fromhex (hex (rt.sha256 body)))
  let envelope ← Effect.lift (sign rt msgDecisionReceipt chain.siteId entry.now
    (digest.take nonceBytes) body chain.key)
  Effect.zoom Prod.fst (fun s t => (s, t.2)) (sink.append (encodeEnvelope rt envelope))
  Effect.update fun t => (t.1, { t.2 with seq := receipt.seq, prevHash := receipt.hash rt })
  return receipt

/-! ## What is accepted as a chain -/

/-- A receipt bears a number and links to a hash. -/
def Follows {S B : Type} (prev : String) (n : Int) (r : Receipt S B) : Prop :=
  r.seq.eq (.int n) = true ∧ r.prevHash = .str prev

section Verify
variable {S B : Type} [OnWire S] [OnWire B]

/-- The receipt can be encoded. -/
def Receipt.Encodes (rt : Runtime) (r : Receipt S B) : Prop := ∃ data, r.dumps rt = .ok data

theorem Receipt.encodes_iff {r : Receipt S B} :
    r.Encodes rt ↔ rt.Encodes r.decision.fields ∧ rt.Encodes (r.body rt) := by
  unfold Receipt.Encodes Receipt.dumps
  cases hdecision : rt.dumps r.decision.fields with
  | error e => simp [Runtime.Encodes, hdecision, bind, Except.bind]
  | ok data => simp [Runtime.Encodes, hdecision, bind, Except.bind]

theorem verifyFrom_ok {prev : String} {n : Int} {receipts : List (Receipt S B)} :
    verifyFrom rt prev n receipts = .ok () ↔
    HashChain.Linked Follows (Receipt.hash rt) prev n receipts ∧
      ∀ r ∈ receipts, r.Encodes rt := by
  induction receipts generalizing prev n with
  | nil => exact iff_of_true rfl ⟨trivial, List.forall_mem_nil _⟩
  | cons r receipts ih =>
    simp only [verifyFrom, bind_eq_ok_iff, raiseIf_eq_ok_iff, Bool.not_eq_false', ih,
      HashChain.Linked, Follows, Value.eq_str_iff, List.forall_mem_cons]
    constructor
    · rintro ⟨⟨⟩, hseq, ⟨⟩, hprev, data, hdata, hrest, hencodes⟩
      exact ⟨⟨⟨hseq, hprev⟩, hrest⟩, ⟨data, hdata⟩, hencodes⟩
    · rintro ⟨⟨⟨hseq, hprev⟩, hrest⟩, ⟨data, hdata⟩, hencodes⟩
      exact ⟨(), hseq, (), hprev, data, hdata, hrest, hencodes⟩

theorem verifyChain_ok {receipts : List (Receipt S B)} : verifyChain rt receipts = .ok () ↔
    HashChain.Linked Follows (Receipt.hash rt) genesisHash 1 receipts ∧
      ∀ r ∈ receipts, r.Encodes rt := verifyFrom_ok

end Verify

/-! ## What is written -/

/-- What is appended for a receipt. -/
def receiptBytes (chain : ReceiptChain rt) (now : DateTime) (receipt : Receipt) : Bytes :=
  encodeEnvelope rt (signed rt msgDecisionReceipt chain.siteId now
    ((rt.sha256 (rt.encoding (receipt.body rt))).take nonceBytes) (rt.encoding (receipt.body rt))
    chain.key)

/-- The head moved to a receipt. -/
def ReceiptChain.advance (chain : ReceiptChain rt) (receipt : Receipt) : ReceiptChain rt :=
  { chain with seq := receipt.seq, prevHash := receipt.hash rt }

section Read
variable {publicKey : rt.PublicKey} {index : Nat} {line : Bytes} {envelope : Envelope}

/-- Of an envelope that verifies only the payload is looked at. -/
theorem readReceipt_of_verified (hdecode : decodeEnvelope rt line = .ok envelope)
    (hverify : verify rt envelope publicKey = .ok ()) : readReceipt rt publicKey index line =
      rt.loadsValue envelope.payload >>= receiptFromBody rt := by
  rw [readReceipt, hdecode]
  dsimp only [bind, Except.bind]
  rw [hverify]

theorem readReceipt_ok {r : Receipt Value Value} : readReceipt rt publicKey index line = .ok r ↔
    ∃ envelope v, decodeEnvelope rt line = .ok envelope ∧ verify rt envelope publicKey = .ok () ∧
      rt.loadsValue envelope.payload = .ok v ∧ receiptFromBody rt v = .ok r := by
  constructor
  · intro h
    obtain ⟨envelope, hdecode, h⟩ := bind_eq_ok_iff.mp h
    cases hverify : verify rt envelope publicKey with
    | error e =>
      rw [hverify] at h
      dsimp only at h
      split_ifs at h
    | ok u =>
      rw [hverify] at h
      obtain ⟨v, hload, hread⟩ := bind_eq_ok_iff.mp h
      exact ⟨envelope, v, hdecode, hverify, hload, hread⟩
  · rintro ⟨envelope, v, hdecode, hverify, hload, hread⟩
    rw [readReceipt_of_verified hdecode hverify, hload]
    exact hread

end Read

/-- A receipt of plain fields can be encoded. -/
theorem Receipt.encodes_of_plain {r : Receipt} (h : (r.body rt).plain = true) : r.Encodes rt :=
  Receipt.encodes_iff.mpr ⟨rt.dumps_plain _ r.decision.plain_fields, rt.dumps_plain _ h⟩

theorem Receipt.dumps_of_plain {r : Receipt} (h : (r.body rt).plain = true) :
    r.dumps rt = .ok (rt.encoding (r.body rt)) := by
  rw [Receipt.dumps, Runtime.dumps_of_plain r.decision.plain_fields, Runtime.dumps_of_plain h]
  rfl

/-- What is written for an entry of characters, under a number, is plain. -/
theorem ReceiptChain.plain_receipt {chain : ReceiptChain rt} {seq : Value} {entry : Entry}
    (hseq : seq.plain = true) (h : entry.detail.Encodable) :
    ((chain.receipt seq entry).body rt).plain = true := by
  obtain ⟨s, hs⟩ := h
  simp [Receipt.body, ReceiptChain.receipt, hseq, hs, Text.value]

section Written
variable (laws : rt.Lawful)
include laws

theorem receiptBytes_ne_nil (chain : ReceiptChain rt) (now : DateTime) (receipt : Receipt) :
    receiptBytes chain now receipt ≠ [] := laws.dumps_ne_nil _ plain_signed

theorem length_nonce (v : Value) :
    ((rt.sha256 (rt.encoding v)).take nonceBytes).length = nonceBytes := by
  rw [List.length_take, laws.length_sha256]
  rfl

section Record
variable (sink : ReadableSink) (entry : Entry) (s : sink.State) {chain : ReceiptChain rt}
  {seq : Value}
  (hseq : chain.seq.succ = .ok seq)
include hseq

/-- What recording does, for any sink, of an entry that can be encoded. -/
theorem record_eq (hentry : entry.detail.Encodable) :
    record sink entry (s, chain) =
      match sink.append (receiptBytes chain entry.now (chain.receipt seq entry)) s with
      | (.ok (), s') => (.ok (chain.receipt seq entry), (s', chain.advance (chain.receipt seq entry)))
      | (.error e, s') => (.error e, (s', chain)) := by
  let body := rt.encoding ((chain.receipt seq entry).body rt)
  have hbody : (chain.receipt seq entry).dumps rt = .ok body :=
    Receipt.dumps_of_plain (ReceiptChain.plain_receipt (Value.plain_of_succ hseq) hentry)
  have hsign : sign rt msgDecisionReceipt chain.siteId entry.now
      ((rt.sha256 body).take nonceBytes) body chain.key = .ok _ := sign_ok (length_nonce laws _)
  unfold record
  rw [Effect.read_bind, Effect.lift_bind_of_ok hseq, Effect.lift_bind_of_ok hbody,
    Effect.lift_bind_of_ok (fromhex_hex _), Effect.lift_bind_of_ok hsign]
  rcases happend : sink.append (receiptBytes chain entry.now (chain.receipt seq entry)) s with
    ⟨e | _, s'⟩
  · rw [Effect.bind_of_error (Effect.zoom_eq happend)]
  · rw [Effect.bind_of_ok (Effect.zoom_eq happend)]
    rfl

/-- One that cannot is not recorded. -/
theorem record_of_unencodable (hentry : ¬entry.detail.Encodable) :
    ∃ e, record sink entry (s, chain) = (.error e, (s, chain)) := by
  have hbody : ¬(chain.receipt seq entry).Encodes rt := by
    rw [Receipt.encodes_iff, Receipt.body, laws.encodes_list]
    intro h
    exact hentry (laws.encodes_text.mp (h.2 entry.detail.value (by simp [ReceiptChain.receipt])))
  cases hdumps : (chain.receipt seq entry).dumps rt with
  | ok data => exact absurd ⟨data, hdumps⟩ hbody
  | error e =>
    unfold record
    rw [Effect.read_bind, Effect.lift_bind_of_ok hseq]
    exact ⟨e, Effect.lift_bind_of_error hdumps _ _⟩

end Record

/-- All that recording can do: nothing, or an append that raises or moves the head. -/
theorem record_cases (sink : ReadableSink) (entry : Entry) (s : sink.State)
    (chain : ReceiptChain rt) :
    (∃ e, record sink entry (s, chain) = (.error e, (s, chain))) ∨
    ∃ seq, chain.seq.succ = .ok seq ∧ entry.detail.Encodable ∧
      ((∃ e s', sink.append (receiptBytes chain entry.now (chain.receipt seq entry)) s =
          (.error e, s') ∧ record sink entry (s, chain) = (.error e, (s', chain))) ∨
        ∃ s', sink.append (receiptBytes chain entry.now (chain.receipt seq entry)) s = (.ok (), s') ∧
          record sink entry (s, chain) = (.ok (chain.receipt seq entry),
            (s', chain.advance (chain.receipt seq entry)))) := by
  cases hseq : chain.seq.succ with
  | error e =>
    refine .inl ⟨e, ?_⟩
    unfold record
    rw [Effect.read_bind]
    exact Effect.lift_bind_of_error hseq _ _
  | ok seq =>
    by_cases hentry : entry.detail.Encodable
    · have hrecord := record_eq laws sink entry s hseq hentry
      refine .inr ⟨seq, rfl, hentry, ?_⟩
      rcases happend : sink.append (receiptBytes chain entry.now (chain.receipt seq entry)) s with
        ⟨e | _, s'⟩
      · rw [happend] at hrecord
        exact .inl ⟨e, s', rfl, hrecord⟩
      · rw [happend] at hrecord
        exact .inr ⟨s', rfl, hrecord⟩
    · exact .inl (record_of_unencodable laws sink entry s hseq hentry)

/-- A receipt as it is read back, its decision cut. -/
def Receipt.readBack (r : Receipt) (c : EligibilityDecision) : Receipt Value Value where
  siteId := r.siteId
  seq := r.seq
  prevHash := r.prevHash
  kind := r.kind
  decision := c.toWire
  outcome := r.outcome
  observedStateHash := r.observedStateHash
  detail := r.detail

section ReadBack
variable {r : Receipt} {c : EligibilityDecision} (h : r.decision.cut = .ok c)
include h

omit laws in
/-- It is encoded, and hashed, as it was written. -/
theorem Receipt.body_readBack : (r.readBack c).body rt = r.body rt := by
  rw [Receipt.body, Receipt.body]
  show Value.list [_, _, _, _, .bytes (encodeDecision rt c.toWire), _, _, _] = _
  rw [encodeDecision_cut rt h]
  rfl

omit laws in
theorem Receipt.hash_readBack : (r.readBack c).hash rt = r.hash rt := by
  rw [Receipt.hash, Receipt.hash, Receipt.body_readBack h]

omit laws in
theorem Receipt.encodes_readBack (hr : r.Encodes rt) : (r.readBack c).Encodes rt := by
  have hfields : c.toWire.fields = r.decision.fields := EligibilityDecision.fields_of_cut h
  rw [Receipt.encodes_iff, Receipt.body_readBack h] at *
  exact ⟨hfields ▸ hr.1, hr.2⟩

end ReadBack

theorem receiptFromBody_body (r : Receipt) :
    receiptFromBody rt (r.body rt) = r.decision.cut.map r.readBack := by
  show (do
    let decision ← decodeDecision rt (.bytes (encodeDecision rt r.decision))
    return ({
      siteId := r.siteId, seq := r.seq, prevHash := r.prevHash, kind := r.kind, decision := decision,
      outcome := r.outcome, observedStateHash := r.observedStateHash,
      detail := r.detail } : Receipt Value Value)) = _
  rw [decodeDecision_encodeDecision laws]
  cases r.decision.cut <;> rfl

/-- What is read back of a receipt: nothing if an instant of it cannot be. -/
theorem readReceipt_receiptBytes (chain : ReceiptChain rt) (n : Int) {entry : Entry}
    (hentry : entry.detail.Encodable) (index : Nat) :
    let receipt := chain.receipt (.int n) entry
    readReceipt rt (rt.publicKey chain.key) index (receiptBytes chain entry.now receipt) =
      entry.now.cut.bind fun _ => entry.decision.cut.map receipt.readBack := by
  intro receipt
  have hplain : (receipt.body rt).plain = true := ReceiptChain.plain_receipt rfl hentry
  cases hcut : entry.now.cut with
  | error e =>
    rw [readReceipt, receiptBytes, decodeEnvelope_encodeEnvelope laws plain_signed]
    show (entry.now.cut.map _).bind _ = _
    rw [hcut]
    rfl
  | ok t =>
    have hverify : verify rt { signed rt msgDecisionReceipt chain.siteId entry.now
        ((rt.sha256 (rt.encoding (receipt.body rt))).take nonceBytes) (rt.encoding (receipt.body rt))
        chain.key with issuedAt := t } (rt.publicKey chain.key) = .ok () :=
      verify_sign laws (length_nonce laws (receipt.body rt)) (DateTime.cut_seconds hcut)
    have hload : rt.loadsValue (.bytes (rt.encoding (receipt.body rt))) = .ok (receipt.body rt) :=
      laws.loads_dumps _ hplain
    rw [receiptBytes, readReceipt_of_verified (decodeEnvelope_signed laws hcut) hverify]
    show rt.loadsValue (.bytes (rt.encoding (receipt.body rt))) >>= _ = _
    rw [hload]
    exact receiptFromBody_body laws receipt

end Written

end Pilotfish
