import Pilotfish.Receipts
import Pilotfish.Run
import Pilotfish.Signer

/-!
# Restarts of the audit trail

A process records, ends, and another rebuilds the chain from the log. Nothing in the log tells
where, unless an instant lies so near the end of the calendar that it cannot be read back.

Results:
1. `Chained.record`: what is true of a log and the head over it stays true.
2. `Chained.recover`: a chain is rebuilt from its log as it was.
3. `restarts_invisible`: any number of restarts leaves the sink, and the head, as one process
   would have.
-/

namespace Pilotfish
open Python

variable {rt : Runtime}

/-- An entry all of whose instants can be read back. -/
structure Entry.Readable (entry : Entry) : Prop where
  now : entry.now.seconds ≤ maxSecond
  decidedAt : entry.decision.decidedAt.seconds ≤ maxSecond
  validUntil : entry.decision.validUntil.seconds ≤ maxSecond

/-- A log reads as receipts of the chain's own site that form a hash chain, at the end of which
the head is. -/
structure Chained (log : List Bytes) (receipts : List (Receipt Value Value))
    (chain : ReceiptChain rt) : Prop where
  read : readChain rt log (rt.publicKey chain.key) = .ok receipts
  length : receipts.length = log.length
  own : ∀ r ∈ receipts, r.siteId = .str chain.siteId
  linked : HashChain.Linked Follows (Receipt.hash rt) genesisHash 1 receipts
  encoded : ∀ r ∈ receipts, r.Encodes rt
  seq : chain.seq = .int receipts.length
  numbered : ∀ r, receipts.getLast? = some r → r.seq = chain.seq
  prevHash : chain.prevHash = HashChain.last (Receipt.hash rt) genesisHash receipts

theorem Chained.new (siteId : String) (key : rt.PrivateKey) :
    Chained [] [] (ReceiptChain.new siteId key) where
  read := rfl
  length := rfl
  own := by simp
  linked := trivial
  encoded := by simp
  seq := rfl
  numbered := by simp
  prevHash := rfl

theorem Chained.succ {log : List Bytes} {receipts : List (Receipt Value Value)}
    {chain : ReceiptChain rt} (h : Chained log receipts chain) :
    chain.seq.succ = .ok (.int (receipts.length + 1)) := by
  rw [h.seq]
  rfl

/-! ## Writing one more -/

theorem readFrom_append {publicKey : rt.PublicKey} {index : Nat} {lines : List Bytes} {line : Bytes}
    {receipts : List (Receipt Value Value)} {r : Receipt Value Value}
    (h : readFrom rt publicKey index lines = .ok receipts)
    (hline : readReceipt rt publicKey (index + lines.length) line = .ok r) :
    readFrom rt publicKey index (lines ++ [line]) = .ok (receipts ++ [r]) := by
  induction lines generalizing index receipts with
  | nil =>
    cases h
    rw [List.nil_append, readFrom, show index = index + ([] : List Bytes).length from rfl, hline]
    rfl
  | cons l lines ih =>
    rw [readFrom, bind_eq_ok_iff] at h
    obtain ⟨r', hr', h⟩ := h
    obtain ⟨rest, hrest, hret⟩ := bind_eq_ok_iff.mp h
    cases hret
    have hindex : index + 1 + lines.length = index + (l :: lines).length := by
      rw [List.length_cons, Nat.add_assoc, Nat.add_comm 1]
    rw [List.cons_append, readFrom, hr']
    show (readFrom rt publicKey (index + 1) (lines ++ [line]) >>= _) = _
    rw [ih hrest (hindex ▸ hline)]
    rfl

section Chain
variable (laws : rt.Lawful) {log : List Bytes} {receipts : List (Receipt Value Value)}
  {chain : ReceiptChain rt}
include laws

/-- A readable entry, written, is one more receipt of the chain. -/
theorem Chained.record (h : Chained log receipts chain) {entry : Entry} (hentry : entry.Readable)
    (hdetail : entry.detail.Encodable) :
    let r := chain.receipt (.int (receipts.length + 1)) entry
    ∃ c, entry.decision.cut = .ok c ∧ Chained (log ++ [receiptBytes chain entry.now r])
      (receipts ++ [r.readBack c]) (chain.advance r) := by
  intro r
  obtain ⟨t, ht⟩ := (DateTime.fromtimestamp_seconds _).mpr hentry.now
  obtain ⟨c, hc⟩ := (EligibilityDecision.cut_ok _).mpr ⟨hentry.decidedAt, hentry.validUntil⟩
  have hhash : (r.readBack c).hash rt = r.hash rt := Receipt.hash_readBack hc
  have hplain : (r.body rt).plain = true := ReceiptChain.plain_receipt rfl hdetail
  refine ⟨c, hc, ?_, ?_, ?_, ?_, ?_, ?_, ?_, ?_⟩
  · have hread := readReceipt_receiptBytes laws chain (receipts.length + 1) hdetail (0 + log.length)
    rw [ht, hc] at hread
    exact readFrom_append h.read hread
  · rw [List.length_append, List.length_append, h.length]
    rfl
  · intro r' hr'
    rcases List.mem_append.mp hr' with hr' | hr'
    · exact h.own r' hr'
    · rw [List.mem_singleton.mp hr']
      rfl
  · refine HashChain.linked_append.mpr ⟨h.linked, ⟨?_, ?_⟩, trivial⟩
    · show (Value.int (receipts.length + 1)).eq (.int (1 + receipts.length)) = true
      rw [Value.eq_int_int, add_comm, decide_eq_true_eq]
    · show Value.str chain.prevHash = _
      rw [h.prevHash]
  · intro r' hr'
    rcases List.mem_append.mp hr' with hr' | hr'
    · exact h.encoded r' hr'
    · rw [List.mem_singleton.mp hr']
      exact Receipt.encodes_readBack hc (Receipt.encodes_of_plain hplain)
  · rw [List.length_append]
    rfl
  · intro r' hr'
    rw [List.getLast?_concat, Option.some.injEq] at hr'
    rw [← hr']
    rfl
  · rw [HashChain.last_append_singleton, hhash]
    rfl

omit laws in
/-- The chain is rebuilt from its log as it was. -/
theorem Chained.recover (h : Chained log receipts chain) {sink : ReadableSink} {s : sink.State}
    (hread : sink.readAll s = .ok log) :
    ReceiptChain.recover sink s chain.key chain.siteId = .ok chain := by
  refine bind_eq_ok_iff.mpr ⟨log, hread, bind_eq_ok_iff.mpr ⟨receipts, h.read, ?_⟩⟩
  cases hlast : receipts.getLast? with
  | none =>
    rw [List.getLast?_eq_none_iff] at hlast
    have hseq := h.seq
    have hprev := h.prevHash
    rw [hlast] at hseq hprev
    show Except.ok (ReceiptChain.new chain.siteId chain.key) = _
    obtain ⟨siteId, key, seq, prevHash⟩ := chain
    obtain rfl : seq = .int 0 := hseq
    obtain rfl : prevHash = genesisHash := hprev
    rfl
  | some last =>
    have hforeign : ReceiptChain.refuseForeign chain.siteId receipts = .ok () := by
      have hsites : ∀ v ∈ receipts.map (·.siteId), v = .str chain.siteId := by
        intro v hv
        obtain ⟨r, hr, rfl⟩ := List.mem_map.mp hv
        exact h.own r hr
      have hminus : Value.setMinus (receipts.map (·.siteId)) [.str chain.siteId] = .ok [] :=
        Value.setMinus_eq_nil.mpr ⟨Value.forM_hashable.mpr fun v hv => by rw [hsites v hv]; rfl, rfl,
          fun v hv => ⟨_, List.mem_singleton_self _, by rw [hsites v hv, Value.eq_str_iff]⟩⟩
      rw [ReceiptChain.refuseForeign, hminus]
      rfl
    have hprev : chain.prevHash = last.hash rt := by
      obtain ⟨init, rfl⟩ := List.getLast?_eq_some_iff.mp hlast
      rw [h.prevHash, HashChain.last_append_singleton]
    -- the head of the rebuilt chain is read off the last receipt
    show (ReceiptChain.refuseForeign chain.siteId receipts >>= fun _ => verifyChain rt receipts >>=
      fun _ => _) = _
    rw [hforeign, verifyChain_ok.mpr ⟨h.linked, h.encoded⟩, h.numbered last hlast, ← hprev]
    rfl

end Chain

/-! ## Runs with restarts -/

/-- One process records; a call that raises is gone on from. -/
def recordAll (sink : ReadableSink) (entries : List Entry) (t : sink.State × ReceiptChain rt) :
    sink.State × ReceiptChain rt :=
  Run.run (fun t entry => (record sink entry t).2) t entries

/-- One process after the other rebuilds the chain and records; the last only rebuilds it. -/
def recordLives (sink : ReadableSink) (siteId : String) (key : rt.PrivateKey) (s : sink.State) :
    List (List Entry) → Except Exc (sink.State × ReceiptChain rt)
  | [] => do return (s, ← ReceiptChain.recover sink s key siteId)
  | entries :: lives => do
      let chain ← ReceiptChain.recover sink s key siteId
      recordLives sink siteId key (recordAll sink entries (s, chain)).1 lives

section Lives
variable {sink : ReadableSink} {siteId : String} {key : rt.PrivateKey} {s : sink.State}

theorem recordLives_cons {chain : ReceiptChain rt}
    (h : ReceiptChain.recover sink s key siteId = .ok chain) (entries : List Entry)
    (lives : List (List Entry)) : recordLives sink siteId key s (entries :: lives) =
      recordLives sink siteId key (recordAll sink entries (s, chain)).1 lives := by
  rw [recordLives, h]
  rfl

theorem recordLives_nil : recordLives sink siteId key s [] =
    (ReceiptChain.recover sink s key siteId).map fun chain => (s, chain) := by
  rw [recordLives]
  cases ReceiptChain.recover sink s key siteId <;> rfl

end Lives

/-- The sink holds a log that the chain is at the end of. -/
def Consistent {S : Type} (holds : S → List Bytes → Prop) (siteId : String) (key : rt.PrivateKey)
    (t : S × ReceiptChain rt) : Prop :=
  t.2.siteId = siteId ∧ t.2.key = key ∧
    ∃ log receipts, holds t.1 log ∧ Chained log receipts t.2

section Runs
variable (laws : rt.Lawful) {sink : ReadableSink} {holds : sink.State → List Bytes → Prop}
  (lawful : sink.Lawful holds) {siteId : String} {key : rt.PrivateKey}
  {t : sink.State × ReceiptChain rt}
include laws lawful

theorem consistent_record (h : Consistent holds siteId key t) {entry : Entry}
    (hentry : entry.Readable) : Consistent holds siteId key (record sink entry t).2 := by
  obtain ⟨s, chain⟩ := t
  obtain ⟨hsite, hkey, log, receipts, hholds, hchain⟩ := h
  rcases record_cases laws sink entry s chain with ⟨e, hrecord⟩ |
    ⟨seq, hseq, hdetail, ⟨e, s', happend, hrecord⟩ | ⟨s', happend, hrecord⟩⟩
  · rw [hrecord]
    exact ⟨hsite, hkey, log, receipts, hholds, hchain⟩
  -- an append that raised left the log, and the head was not moved
  · rw [hrecord]
    exact ⟨hsite, hkey, log, receipts, lawful.append_error hholds happend, hchain⟩
  · rw [hrecord]
    obtain rfl : seq = .int (receipts.length + 1) := Except.ok.inj (hseq.symm.trans hchain.succ)
    obtain ⟨c, -, hnext⟩ := hchain.record laws hentry hdetail
    exact ⟨hsite, hkey, _, _, lawful.append_ok hholds (receiptBytes_ne_nil laws _ _ _) happend, hnext⟩

theorem consistent_recordAll (h : Consistent holds siteId key t) {entries : List Entry}
    (hentries : ∀ entry ∈ entries, entry.Readable) :
    Consistent holds siteId key (recordAll sink entries t) := by
  have keep (t : sink.State × ReceiptChain rt) (entry : Entry) (ht : Consistent holds siteId key t)
      (hentry : entry.Readable) : Consistent holds siteId key (record sink entry t).2 :=
    consistent_record laws lawful ht hentry
  exact Run.run_invariant keep h hentries

omit lawful in
/-- One entry, appended. -/
theorem recordAll_singleton {s s' : sink.State} {chain : ReceiptChain rt} {entry : Entry}
    {seq : Value} (hseq : chain.seq.succ = .ok seq) (hentry : entry.detail.Encodable)
    (happend : sink.append (receiptBytes chain entry.now (chain.receipt seq entry)) s = (.ok (), s')) :
    recordAll sink [entry] (s, chain) = (s', chain.advance (chain.receipt seq entry)) := by
  rw [recordAll, Run.run_cons, Run.run_nil, record_eq laws sink entry s hseq hentry,
    happend]

omit laws in
theorem recover_consistent (h : Consistent holds siteId key t) :
    ReceiptChain.recover sink t.1 key siteId = .ok t.2 := by
  obtain ⟨hsite, hkey, log, receipts, hholds, hchain⟩ := h
  rw [← hsite, ← hkey]
  exact hchain.recover (lawful.readAll hholds)

/-- Processes one after the other leave the sink, and the head, as one process would have. -/
theorem recordLives_eq (h : Consistent holds siteId key t) {lives : List (List Entry)}
    (hentries : ∀ entries ∈ lives, ∀ entry ∈ entries, entry.Readable) :
    recordLives sink siteId key t.1 lives = .ok (recordAll sink lives.flatten t) := by
  -- over the processes: each starts where the one before left the sink, and rebuilds its head
  induction lives generalizing t with
  | nil =>
    rw [recordLives_nil, recover_consistent lawful h]
    rfl
  | cons entries lives ih =>
    have hnext := consistent_recordAll laws lawful h (hentries entries List.mem_cons_self)
    have hrest : ∀ entries' ∈ lives, ∀ entry ∈ entries', entry.Readable := fun entries' h' =>
      hentries entries' (List.mem_cons_of_mem _ h')
    rw [recordLives_cons (recover_consistent lawful h), ih hnext hrest, List.flatten_cons, recordAll,
      recordAll, recordAll, Run.run_append]

/-- Restarting never shows: every recovery succeeds, the sink and the head are those of one
process, the head is the number of receipts and the hash of the last, and a record that raises
does not move it. -/
theorem restarts_invisible {s : sink.State} (hs : holds s []) {lives : List (List Entry)}
    (hentries : ∀ entries ∈ lives, ∀ entry ∈ entries, entry.Readable) :
    let t := recordAll sink lives.flatten (s, ReceiptChain.new siteId key)
    recordLives sink siteId key s lives = .ok t ∧
    (∃ log receipts, holds t.1 log ∧ readChain rt log (rt.publicKey key) = .ok receipts ∧
      receipts.length = log.length ∧ t.2.head =
        (.int receipts.length, HashChain.last (Receipt.hash rt) genesisHash receipts)) ∧
    ∀ entry e, (record sink entry t).1 = .error e → (record sink entry t).2.2.head = t.2.head := by
  intro t
  have hstart : Consistent holds siteId key (s, ReceiptChain.new siteId key) :=
    ⟨rfl, rfl, [], [], hs, .new siteId key⟩
  have hend : Consistent holds siteId key t := consistent_recordAll laws lawful hstart
    fun entry hentry => by
      obtain ⟨entries, hlife, hentry⟩ := List.mem_flatten.mp hentry
      exact hentries entries hlife entry hentry
  obtain ⟨hsite, hkey, log, receipts, hholds, hchain⟩ := hend
  refine ⟨recordLives_eq laws lawful hstart hentries, ⟨log, receipts, hholds, ?_, hchain.length, ?_⟩,
    fun entry e herror => ?_⟩
  · rw [← hkey]
    exact hchain.read
  · rw [ReceiptChain.head, hchain.seq, hchain.prevHash]
  · rw [show t = (t.1, t.2) from rfl] at herror ⊢
    rcases record_cases laws sink entry t.1 t.2 with ⟨e', hrecord⟩ |
      ⟨seq, -, -, ⟨e', s', -, hrecord⟩ | ⟨s', -, hrecord⟩⟩
    · rw [hrecord]
    · rw [hrecord]
    · rw [hrecord] at herror
      cases herror

end Runs

/-- A log whose first line cannot be read is not recovered. -/
theorem recover_of_unreadable {sink : ReadableSink} {s : sink.State} {key : rt.PrivateKey}
    {line : Bytes} {lines : List Bytes} {e : Exc} (hlog : sink.readAll s = .ok (line :: lines))
    (hread : readReceipt rt (rt.publicKey key) 0 line = .error e) (siteId : String) :
    ReceiptChain.recover sink s key siteId = .error e := by
  rw [ReceiptChain.recover, hlog]
  show (readFrom rt (rt.publicKey key) 0 (line :: lines) >>= _) = _
  rw [readFrom, hread]
  rfl

namespace Sample

/-- A decision taken at noon, recorded at a second of that hour. -/
def entry (seconds : UInt16) (validUntil : DateTime) : Entry where
  decision := ⟨"site-1", clock 0, validUntil, "", "", false, [⟨"bulk", ["fiber0"], []⟩]⟩
  now := clock seconds

theorem readable_entry (seconds : UInt16) :
    (entry seconds (clock 60)).Readable where
  now := (DateTime.fromtimestamp_seconds _).mp ⟨_, cut_clock seconds⟩
  decidedAt := (DateTime.fromtimestamp_seconds _).mp ⟨_, cut_clock 0⟩
  validUntil := (DateTime.fromtimestamp_seconds _).mp ⟨_, cut_clock 60⟩

end Sample

/-- A decision valid to the end of the calendar is recorded, and the log cannot be recovered. -/
theorem last_instant_unrecoverable : ∃ e, recordLives memoryReceiptSink "site-1" Sample.siteKey []
    [[Sample.entry 0 Sample.lastInstant]] = .error e := by
  let chain : ReceiptChain standIn := .new "site-1" Sample.siteKey
  let entry := Sample.entry 0 Sample.lastInstant
  let bytes := receiptBytes chain entry.now (chain.receipt (.int (0 + 1)) entry)
  have hempty : memoryReceiptSink.readAll ([] : List Bytes) = .ok [] := rfl
  have hfirst : ReceiptChain.recover memoryReceiptSink ([] : List Bytes) Sample.siteKey "site-1" =
      .ok chain := (Chained.new "site-1" Sample.siteKey).recover hempty
  have hseq : chain.seq.succ = .ok (.int (0 + 1)) := rfl
  have happend (r : Bytes) : memoryReceiptSink.append r ([] : List Bytes) = (.ok (), [r]) := rfl
  have hrecord : (recordAll memoryReceiptSink [entry] (([] : List Bytes), chain)).1 = [bytes] :=
    congrArg Prod.fst (recordAll_singleton lawful_standIn hseq ⟨"", rfl⟩ (happend _))
  obtain ⟨e, he⟩ : ∃ e, entry.decision.cut = .error e := by
    cases hcut : entry.decision.cut with
    | error e => exact ⟨e, rfl⟩
    | ok c =>
      have hlast := ((EligibilityDecision.cut_ok _).mp ⟨c, hcut⟩).2
      exact absurd hlast (by decide +kernel)
  have hread : readReceipt standIn (standIn.publicKey Sample.siteKey) 0 bytes = .error e := by
    have hnow : entry.now.cut = .ok (Sample.clock 0) := Sample.cut_clock 0
    have hdetail : entry.detail.Encodable := ⟨"", rfl⟩
    have hback := readReceipt_receiptBytes lawful_standIn chain (0 + 1) hdetail 0
    rw [hnow, he] at hback
    exact hback
  have hlog : memoryReceiptSink.readAll ([bytes] : List Bytes) = .ok [bytes] := rfl
  have hsecond := recover_of_unreadable hlog hread "site-1"
  refine ⟨e, (recordLives_cons hfirst [entry] []).trans ?_⟩
  rw [hrecord]
  exact recordLives_nil.trans (congrArg (Except.map fun chain => ([bytes], chain)) hsecond)

/-- Two processes write the log of one. -/
theorem restarts_invisible_sample :
    let lives := [[Sample.entry 0 (Sample.clock 60)], [Sample.entry 60 (Sample.clock 60)]]
    let t := recordAll fileReceiptSink lives.flatten
      (⟨none⟩, (ReceiptChain.new "site-1" Sample.siteKey : ReceiptChain standIn))
    recordLives fileReceiptSink "site-1" Sample.siteKey ⟨none⟩ lives = .ok t ∧
    (∃ log receipts, FileReceiptSink.Holds t.1 log ∧
      readChain standIn log (standIn.publicKey Sample.siteKey) = .ok receipts ∧
      receipts.length = log.length ∧ t.2.head = (.int receipts.length,
        HashChain.last (Receipt.hash standIn) genesisHash receipts)) ∧
    ∀ entry e, (record fileReceiptSink entry t).1 = .error e →
      (record fileReceiptSink entry t).2.2.head = t.2.head :=
  restarts_invisible lawful_standIn lawful_fileSink ⟨by simp, rfl⟩ (by
    simp only [List.forall_mem_cons, List.not_mem_nil, false_imp_iff, implies_true, and_true]
    exact ⟨Sample.readable_entry 0, Sample.readable_entry 60⟩)

end Pilotfish
