import Pilotfish.TurnOrder

/-!
# Recording before acting

A turn acts on the dataplane only when the decision and the attempt are on record, and whatever
raises on the way, the log stays a chain that can be verified.

Results:
1. `Trail.record`, `Trail.recover`: a chain at the end of its log is there after every record, and
   one that is rebuilt from the log is there again.
2. `trailed_run`: the log is a trail at every moment of every run.
3. `recorded_before_applied`: when the dataplane is called, the last two receipts are those of the
   decision it is called with.
-/

namespace Pilotfish
open Python

variable {rt : Runtime}

/-! ## A log and the chain over it -/

/-- A line that a chain wrote for a receipt. -/
def Carries (rt : Runtime) (line : Bytes) (r : Receipt) : Prop :=
  ∃ (chain : ReceiptChain rt) (now : DateTime) (n : Int) (entry : Entry), entry.detail.Encodable ∧
    r = chain.receipt (.int n) entry ∧ line = receiptBytes chain now r

/-- A log of receipts that are linked from the first on. -/
structure Trail (rt : Runtime) (log : List Bytes) (receipts : List Receipt) : Prop where
  carried : List.Forall₂ (Carries rt) log receipts
  linked : HashChain.Linked Follows (Receipt.hash rt) genesisHash 1 receipts

/-- The next receipt of the chain follows these. -/
structure AtEnd (chain : ReceiptChain rt) (receipts : List Receipt) : Prop where
  seq : chain.seq = .int receipts.length
  prevHash : chain.prevHash = HashChain.last (Receipt.hash rt) genesisHash receipts

theorem Trail.nil : Trail rt [] [] := ⟨.nil, trivial⟩

theorem AtEnd.new (siteId : String) (key : rt.PrivateKey) : AtEnd (.new siteId key) [] := ⟨rfl, rfl⟩

section Trail
variable {log : List Bytes} {receipts : List Receipt} {chain : ReceiptChain rt}

theorem AtEnd.succ (h : AtEnd chain receipts) :
    chain.seq.succ = .ok (.int (receipts.length + 1)) := by
  rw [h.seq]
  rfl

/-- One more receipt of a chain at the end. -/
theorem Trail.record (h : Trail rt log receipts) (hend : AtEnd chain receipts) {entry : Entry}
    (hentry : entry.detail.Encodable) :
    let r := chain.receipt (.int (receipts.length + 1)) entry
    Trail rt (log ++ [receiptBytes chain entry.now r]) (receipts ++ [r]) ∧
      AtEnd (chain.advance r) (receipts ++ [r]) := by
  intro r
  have hfollows : Follows (HashChain.last (Receipt.hash rt) genesisHash receipts)
      (1 + receipts.length) r := by
    refine ⟨?_, ?_⟩
    · show (Value.int (receipts.length + 1)).eq (.int (1 + receipts.length)) = true
      rw [Value.eq_int_int, add_comm, decide_eq_true_eq]
    · rw [← hend.prevHash]
      rfl
  refine ⟨⟨?_, HashChain.linked_append.mpr ⟨h.linked, hfollows, trivial⟩⟩, ?_, ?_⟩
  · exact List.rel_append h.carried (.cons ⟨chain, entry.now, _, entry, hentry, rfl, rfl⟩ .nil)
  · rw [List.length_append]
    rfl
  · rw [HashChain.last_append_singleton]
    rfl

/-- What a line carries can be encoded. -/
theorem Carries.plain {line : Bytes} {r : Receipt} (h : Carries rt line r) :
    (r.body rt).plain = true := by
  obtain ⟨chain, now, n, entry, hentry, rfl, rfl⟩ := h
  exact ReceiptChain.plain_receipt rfl hentry

/-- The receipts of a trail are accepted as a chain. -/
theorem Trail.verified (h : Trail rt log receipts) : verifyChain rt receipts = .ok () := by
  refine verifyChain_ok.mpr ⟨h.linked, ?_⟩
  intro r hr
  obtain ⟨line, -, hcarries⟩ := exists_of_mem_forall₂ h.carried hr
  exact Receipt.encodes_of_plain hcarries.plain

/-! ## Reading a trail -/

/-- What was written of a numbered receipt, read back. -/
structure ReadsAs (r : Receipt) (w : Receipt Value Value) : Prop where
  back : ∃ c, r.decision.cut = .ok c ∧ w = r.readBack c
  numbered : ∃ n, w.seq = .int n

theorem ReadsAs.hash {r : Receipt} {w : Receipt Value Value} (h : ReadsAs r w) :
    r.hash rt = w.hash rt := by
  obtain ⟨c, hcut, rfl⟩ := h.back
  exact (Receipt.hash_readBack hcut).symm

theorem ReadsAs.encodes {r : Receipt} {w : Receipt Value Value} (h : ReadsAs r w)
    (hr : r.Encodes rt) : w.Encodes rt := by
  obtain ⟨c, hcut, rfl⟩ := h.back
  exact Receipt.encodes_readBack hcut hr

theorem ReadsAs.follows {r : Receipt} {w : Receipt Value Value} (h : ReadsAs r w) {prev : String}
    {n : Int} (hr : Follows prev n r) : Follows prev n w := by
  obtain ⟨c, -, rfl⟩ := h.back
  exact hr

/-- Receipts that were read back are linked as they were written. -/
theorem linked_readsAs {read : List (Receipt Value Value)} {prev : String} {n : Int}
    (hlinked : HashChain.Linked Follows (Receipt.hash rt) prev n receipts)
    (h : List.Forall₂ ReadsAs receipts read) :
    HashChain.Linked Follows (Receipt.hash rt) prev n read :=
  hlinked.replace (fun _ _ _ _ hr => hr.follows) (fun _ _ hr => hr.hash) h

section Laws
variable (laws : rt.Lawful)
include laws

/-- Whatever key a line is read under, it is read as what was written. -/
theorem Carries.read {line : Bytes} {r : Receipt} (h : Carries rt line r)
    {publicKey : rt.PublicKey} {index : Nat} {w : Receipt Value Value}
    (hread : readReceipt rt publicKey index line = .ok w) : ReadsAs r w := by
  have hplain := h.plain
  obtain ⟨chain, now, n, entry, -, rfl, rfl⟩ := h
  obtain ⟨envelope, fields, hdecode, -, hload, hread⟩ := readReceipt_ok.mp hread
  rw [receiptBytes, decodeEnvelope_encodeEnvelope laws plain_signed] at hdecode
  obtain ⟨t, -, rfl⟩ := map_eq_ok_iff.mp hdecode
  obtain rfl : (chain.receipt (.int n) entry).body rt = fields :=
    Except.ok.inj ((laws.loads_dumps _ hplain).symm.trans hload)
  rw [receiptFromBody_body laws] at hread
  obtain ⟨c, hcut, rfl⟩ := map_eq_ok_iff.mp hread
  exact ⟨⟨c, hcut, rfl⟩, n, rfl⟩

theorem readFrom_carried (h : List.Forall₂ (Carries rt) log receipts) {publicKey : rt.PublicKey}
    {index : Nat} {read : List (Receipt Value Value)}
    (hread : readFrom rt publicKey index log = .ok read) : List.Forall₂ ReadsAs receipts read := by
  induction h generalizing index read with
  | nil =>
    cases hread
    exact .nil
  | cons hline _ ih =>
    unfold readFrom at hread
    obtain ⟨w, hw, hread⟩ := bind_eq_ok_iff.mp hread
    obtain ⟨rest, hrest, hread⟩ := bind_eq_ok_iff.mp hread
    cases hread
    exact .cons (hline.read laws hw) (ih hrest)

/-- What is read of a trail is a chain. -/
theorem Trail.verifies (h : Trail rt log receipts) {publicKey : rt.PublicKey}
    {read : List (Receipt Value Value)} (hread : readChain rt log publicKey = .ok read) :
    verifyChain rt read = .ok () := by
  have hreads := readFrom_carried laws h.carried hread
  refine verifyChain_ok.mpr ⟨linked_readsAs h.linked hreads, ?_⟩
  intro w hw
  obtain ⟨r, hr, hback⟩ := exists_of_mem_forall₂ hreads hw
  exact hback.encodes ((verifyChain_ok.mp h.verified).2 r hr)

/-- A chain that is rebuilt from a trail is at its end. -/
theorem Trail.recover (h : Trail rt log receipts) {sink : ReadableSink} {s : sink.State}
    (hlog : sink.readAll s = .ok log) {key : rt.PrivateKey} {siteId : String}
    (hrecover : ReceiptChain.recover sink s key siteId = .ok chain) : AtEnd chain receipts := by
  unfold ReceiptChain.recover at hrecover
  obtain ⟨lines, hlines, hrecover⟩ := bind_eq_ok_iff.mp hrecover
  obtain rfl : log = lines := Except.ok.inj (hlog.symm.trans hlines)
  obtain ⟨read, hread, hrecover⟩ := bind_eq_ok_iff.mp hrecover
  have hreads := readFrom_carried laws h.carried hread
  cases hlast : read.getLast? with
  | none =>
    rw [List.getLast?_eq_none_iff] at hlast
    rw [hlast] at hreads hrecover
    cases hreads
    cases hrecover
    exact .new siteId key
  | some w =>
    rw [hlast] at hrecover
    obtain ⟨⟨⟩, -, hrecover⟩ := bind_eq_ok_iff.mp hrecover
    obtain ⟨⟨⟩, -, hrecover⟩ := bind_eq_ok_iff.mp hrecover
    cases hrecover
    obtain ⟨init, rfl⟩ := List.getLast?_eq_some_iff.mp hlast
    obtain ⟨-, ⟨hseq, -⟩, -⟩ := HashChain.linked_append.mp (linked_readsAs h.linked hreads)
    refine ⟨?_, ?_⟩
    · obtain ⟨r, hr⟩ : ∃ r, ReadsAs r w := by
        have hend := List.forall₂_drop_append _ _ _ hreads
        generalize receipts.drop init.length = rest at hend
        cases hend with
        | cons hr _ => exact ⟨_, hr⟩
      obtain ⟨n, hn⟩ := hr.numbered
      rw [hn, Value.eq_int_int, decide_eq_true_eq] at hseq
      rw [hreads.length_eq, hn, hseq, List.length_append]
      simp [add_comm]
    · rw [HashChain.last_congr (fun _ _ hr => hr.hash) hreads, HashChain.last_append_singleton]

end Laws

end Trail

/-! ## Agents -/

section Agents
variable {sink : ReadableSink} {holds : sink.State → List Bytes → Prop}

/-- The log is a trail, and the chain is at its end. -/
def Agent.OnTrail (holds : sink.State → List Bytes → Prop) (a : Agent rt sink) : Prop :=
  ∃ log receipts, holds a.log log ∧ Trail rt log receipts ∧ AtEnd a.chain receipts

/-- Nothing that is done leaves the trail. -/
def KeepsTrail {α : Type} (holds : sink.State → List Bytes → Prop)
    (m : Effect Exc (Agent rt sink) α) : Prop :=
  Effect.Within (fun a b => a.OnTrail holds → b.OnTrail holds) m

theorem onTrail_deliveries (deliveries : List Delivery) {a : Agent rt sink}
    (h : a.OnTrail holds) : (deliveries.foldl Agent.deliver a).OnTrail holds := by
  obtain ⟨log, receipts, hheld, htrail, hend⟩ := h
  obtain ⟨hchain, hlog⟩ := deliveries_chain_log deliveries a
  exact ⟨log, receipts, hlog ▸ hheld, htrail, hchain ▸ hend⟩

theorem keepsTrail_foreign {α : Type} (call : Foreign α) :
    KeepsTrail holds (foreign call : Effect Exc (Agent rt sink) α) := by
  intro a h
  exact onTrail_deliveries call.deliveries h

theorem keepsTrail_lift {α : Type} (result : Except Exc α) :
    KeepsTrail holds (Effect.lift result : Effect Exc (Agent rt sink) α) := by
  intro a h
  exact h

theorem keepsTrail_bind {α β : Type} {m : Effect Exc (Agent rt sink) α}
    {f : α → Effect Exc (Agent rt sink) β} (hm : KeepsTrail holds m)
    (hf : ∀ x, KeepsTrail holds (f x)) : KeepsTrail holds (m >>= f) :=
  Effect.Within.bind (R := fun a b : Agent rt sink => a.OnTrail holds → b.OnTrail holds)
    (fun hab hbc h => hbc (hab h)) hm hf

section Laws
variable (laws : rt.Lawful) (lawful : sink.Lawful holds)
include laws lawful

/-- A record appends the next receipt and moves the head, or does neither. -/
theorem keepsTrail_recordEntry (entry : Entry) :
    KeepsTrail holds (recordEntry entry : Effect Exc (Agent rt sink) Receipt) := by
  rintro a ⟨log, receipts, hheld, htrail, hend⟩
  rcases recordEntry_cases laws entry a with ⟨e, hraised⟩ |
    ⟨seq, hseq, hentry, ⟨e, s', happend, hraised⟩ | ⟨s', happend, hreturned⟩⟩
  · rw [hraised]
    exact ⟨log, receipts, hheld, htrail, hend⟩
  · rw [hraised]
    exact ⟨log, receipts, lawful.append_error hheld happend, htrail, hend⟩
  · rw [hreturned]
    obtain rfl : seq = .int (receipts.length + 1) := Except.ok.inj (hseq.symm.trans hend.succ)
    obtain ⟨htrail', hend'⟩ := htrail.record hend hentry
    exact ⟨_, _, lawful.append_ok hheld (receiptBytes_ne_nil laws _ _ _) happend, htrail', hend'⟩

theorem keepsTrail_recordThen (entry : Entry) (stage : Option Stage) :
    KeepsTrail holds (Stage.recordThen entry stage :
      Effect Exc (Agent rt sink) (Option Receipt × Option Stage)) :=
  keepsTrail_bind (keepsTrail_recordEntry laws lawful entry) fun _ _ h => h

theorem keepsTrail_next (t : Turn rt sink) (stage : Stage) : KeepsTrail holds (stage.next t) := by
  cases stage with
  | pinned =>
    exact keepsTrail_bind (keepsTrail_foreign t.env.observe) fun _ =>
      keepsTrail_bind (keepsTrail_lift _) fun _ _ h => h
  | decided decision => exact keepsTrail_recordThen laws lawful _ _
  | authorised decision => exact keepsTrail_recordThen laws lawful _ _
  | attempting decision =>
    intro a h
    have ha' := onTrail_deliveries (t.env.apply decision).deliveries h
    rcases happly : foreign (t.env.apply decision) a with ⟨e | u, a'⟩
    · obtain rfl := congrArg Prod.snd happly
      rw [Stage.next_attempting_of_error happly]
      exact ha'
    · obtain rfl := congrArg Prod.snd happly
      rw [Stage.next_attempting_of_ok happly]
      exact ha'
  | failed decision e =>
    exact keepsTrail_bind (keepsTrail_lift _) fun _ => keepsTrail_recordThen laws lawful _ _
  | applied decision =>
    exact keepsTrail_bind (keepsTrail_foreign (t.env.readback decision)) fun _ =>
      keepsTrail_bind (keepsTrail_lift _) fun _ => keepsTrail_bind (keepsTrail_lift _) fun _ _ h => h
  | audited decision observedStateHash complaint => exact keepsTrail_recordThen laws lawful _ _

end Laws

end Agents

/-! ## Runs -/

namespace Station
variable {sink : ReadableSink} {holds : sink.State → List Bytes → Prop} {s : Station rt sink}

/-- The log is a trail, and the chain of a process over it is at its end. -/
def Trailed (holds : sink.State → List Bytes → Prop) (s : Station rt sink) : Prop :=
  match s.process with
  | .down _ log => ∃ lines receipts, holds log lines ∧ Trail rt lines receipts
  | .idle a => a.OnTrail holds
  | .busy a _ _ => a.OnTrail holds

theorem Trailed.log (h : s.Trailed holds) :
    ∃ lines receipts, holds s.log lines ∧ Trail rt lines receipts := by
  unfold Trailed at h
  unfold Station.log
  cases hp : s.process with
  | down epochs log =>
    rw [hp] at h
    exact h
  | idle a =>
    rw [hp] at h
    obtain ⟨lines, receipts, hheld, htrail, -⟩ := h
    exact ⟨lines, receipts, hheld, htrail⟩
  | busy a t stage =>
    rw [hp] at h
    obtain ⟨lines, receipts, hheld, htrail, -⟩ := h
    exact ⟨lines, receipts, hheld, htrail⟩

section Laws
variable (laws : rt.Lawful) (lawful : sink.Lawful holds)
include laws lawful

theorem trailed_step (h : s.Trailed holds) (event : TurnEvent rt) :
    (s.step event).Trailed holds := by
  have hmoves := s.moves_step event
  generalize s.step event = s' at hmoves ⊢
  cases hmoves with
  | still => exact h
  | start hinit hrecover =>
    obtain ⟨lines, receipts, hheld, htrail⟩ := h
    exact ⟨lines, receipts, hheld, htrail, htrail.recover laws (lawful.readAll hheld) hrecover⟩
  | deliver a ended d => exact onTrail_deliveries [d] h
  | deliverBusy a t stage ended d => exact onTrail_deliveries [d] h
  | call a ended env siteId now => exact h
  | next a t stage ended =>
    have hnext := keepsTrail_next laws lawful t stage a h
    generalize stage.next t a = came at hnext ⊢
    rcases came with ⟨e | ⟨receipt, _ | stage'⟩, a'⟩
    · exact hnext
    · exact hnext
    · exact hnext
  | stop a ended => exact h.log
  | stopBusy a t stage ended => exact h.log

theorem trailed_run (h : s.Trailed holds) (events : List (TurnEvent rt)) :
    (Run.run step s events).Trailed holds :=
  Run.run_invariant (I := fun s : Station rt sink => s.Trailed holds)
    (fun _ event hs (_ : True) => trailed_step laws lawful hs event) h fun _ _ => trivial

end Laws

/-! ## What is on record when the dataplane is called -/

/-- The kinds of the receipts that a turn has written by a stage. -/
def kindsBy : Stage → List String
  | .pinned => []
  | .decided _ => []
  | .authorised _ => [kindDecision]
  | _ => [kindDecision, kindExecution]

/-- The turn under way has written what belongs to its stage. -/
def InStage (s : Station rt sink) : Prop :=
  ∀ a t stage, s.process = .busy a t stage →
    t.receipts.map (·.kind) = (kindsBy stage).map Value.str

section Stages
variable (laws : rt.Lawful) {t : Turn rt sink} {stage stage' : Stage} {a a' : Agent rt sink}
  {receipt : Option Receipt}

include laws in
theorem kind_recordThen {entry : Entry} {next : Option Stage}
    (h : Stage.recordThen entry next a = (.ok (receipt, some stage'), a')) :
    next = some stage' ∧ receipt.toList.map (·.kind) = [.str entry.kind] := by
  obtain ⟨r, a₁, hrecord, h⟩ := Effect.bind_eq_ok_iff.mp h
  cases h
  refine ⟨rfl, ?_⟩
  rcases recordEntry_cases laws entry a with ⟨e, hraised⟩ |
    ⟨seq, -, -, ⟨e, s', -, hraised⟩ | ⟨s', -, hreturned⟩⟩
  · cases hraised.symm.trans hrecord
  · cases hraised.symm.trans hrecord
  · cases hreturned.symm.trans hrecord
    rfl

include laws in
/-- A step that goes on to a stage has written what is missing for it. -/
theorem kinds_next (h : stage.next t a = (.ok (receipt, some stage'), a')) :
    (kindsBy stage').map Value.str =
      (kindsBy stage).map Value.str ++ receipt.toList.map (·.kind) := by
  cases stage with
  | pinned =>
    obtain ⟨observations, a₁, -, h⟩ := Effect.bind_eq_ok_iff.mp h
    obtain ⟨decision, a₂, -, h⟩ := Effect.bind_eq_ok_iff.mp h
    cases h
    rfl
  | decided decision =>
    obtain ⟨hnext, hkind⟩ := kind_recordThen laws h
    cases hnext
    rw [hkind]
    rfl
  | authorised decision =>
    obtain ⟨hnext, hkind⟩ := kind_recordThen laws h
    cases hnext
    rw [hkind]
    rfl
  | attempting decision =>
    rcases happly : foreign (t.env.apply decision) a with ⟨e | u, a₁⟩
    · rw [Stage.next_attempting_of_error happly] at h
      cases h
      rfl
    · rw [Stage.next_attempting_of_ok happly] at h
      cases h
      rfl
  | failed decision e =>
    obtain ⟨shown, a₁, -, h⟩ := Effect.bind_eq_ok_iff.mp h
    cases (kind_recordThen laws h).1
  | applied decision =>
    obtain ⟨actual, a₁, -, h⟩ := Effect.bind_eq_ok_iff.mp h
    obtain ⟨complaint, a₂, -, h⟩ := Effect.bind_eq_ok_iff.mp h
    obtain ⟨observedStateHash, a₃, -, h⟩ := Effect.bind_eq_ok_iff.mp h
    cases h
    rfl
  | audited decision observedStateHash complaint => cases (kind_recordThen laws h).1

include laws in
theorem inStage_step (h : s.InStage) (event : TurnEvent rt) : (s.step event).InStage := by
  have hmoves := s.moves_step event
  generalize s.step event = s' at hmoves ⊢
  intro a t stage hp
  cases hmoves with
  | still => exact h a t stage hp
  | start hinit hrecover => cases hp
  | deliver a ended d => cases hp
  | deliverBusy a t stage ended d =>
    cases hp
    exact h a t stage rfl
  | call a ended env siteId now =>
    cases hp
    rfl
  | next a t stage ended =>
    rcases hnext : stage.next t a with ⟨e | ⟨receipt, _ | stage'⟩, a'⟩
    · rw [hnext] at hp
      cases hp
    · rw [hnext] at hp
      cases hp
    · rw [hnext] at hp
      cases hp
      rw [kinds_next laws hnext, ← h a t stage rfl, Turn.write, List.map_append]
  | stop a ended => cases hp
  | stopBusy a t stage ended => cases hp

include laws in
theorem inStage_run (h : s.InStage) (events : List (TurnEvent rt)) :
    (Run.run step s events).InStage :=
  Run.run_invariant (I := InStage) (fun _ event hs (_ : True) => inStage_step laws hs event) h
    fun _ _ => trivial

end Stages

/-- Before the first turn: whatever was written is a trail, and the chain of a process over it is
at its end. -/
structure Begins (holds : sink.State → List Bytes → Prop) (s : Station rt sink) : Prop where
  ended : s.ended = []
  waiting : ∀ a t stage, s.process ≠ .busy a t stage
  trailed : s.Trailed holds

/-- An epoch store and a log with nothing written, and no process. -/
theorem begins_fresh {log : sink.State} (h : holds log []) (epochs : EpochStore) :
    Begins holds (fresh epochs log : Station rt sink) where
  ended := rfl
  waiting := by
    intro a t stage hp
    cases hp
  trailed := ⟨[], [], h, .nil⟩

theorem Begins.turns (h : s.Begins holds) : s.turns = [] := by
  unfold Station.turns
  split
  · exact absurd ‹_› (h.waiting _ _ _)
  · exact h.ended

theorem Begins.inStage (h : s.Begins holds) : s.InStage := by
  intro a t stage hp
  exact absurd hp (h.waiting a t stage)

theorem Begins.wellRecorded (h : s.Begins holds) {log : List Bytes} (hlog : holds s.log log) :
    s.WellRecorded holds log where
  held := by
    rw [h.turns]
    simpa using hlog
  decides := by
    intro t ht
    rw [h.turns] at ht
    cases ht
  busy := by
    intro a t stage hp
    exact absurd hp (h.waiting a t stage)

/-- A turn that is about to call the dataplane has written two receipts. -/
theorem two_receipts {receipts : List Receipt} {decision : EligibilityDecision}
    (h : receipts.map (·.kind) = (kindsBy (.attempting decision)).map Value.str) :
    ∃ r r', receipts = [r, r'] ∧ r.kind = .str kindDecision ∧ r'.kind = .str kindExecution := by
  obtain ⟨r, rest, rfl, hkind, hrest⟩ := List.map_eq_cons_iff.mp h
  obtain ⟨r', rest', rfl, hkind', hrest'⟩ := List.map_eq_cons_iff.mp hrest
  rw [List.map_eq_nil_iff.mp hrest']
  exact ⟨r, r', rfl, hkind, hkind'⟩

end Station

/-- At every moment of every run, whatever raises on the way: when the dataplane is about to be
called with a decision, the log ends with the two receipts of the turn, of the decision and of the
attempt, and both carry it; a turn one of whose steps raises, such as a record, is over; and what
the log holds is accepted as a chain, as it was written and as far as it can be read back. -/
theorem recorded_before_applied (laws : rt.Lawful) {sink : ReadableSink}
    {holds : sink.State → List Bytes → Prop} (lawful : sink.Lawful holds) {s : Station rt sink}
    (hs : s.Begins holds) (events : List (TurnEvent rt)) :
    let s' := Run.run Station.step s events
    (∀ a t decision, s'.process = .busy a t (.attempting decision) →
      ∃ before r r', holds a.log (before ++ [receiptBytes t.agent.chain t.now r,
          receiptBytes t.agent.chain t.now r']) ∧ t.receipts = [r, r'] ∧
        r.kind = .str kindDecision ∧ r'.kind = .str kindExecution ∧
        r.decision = decision ∧ r'.decision = decision) ∧
    (∀ a t stage e a', s'.process = .busy a t stage → stage.next t a = (.error e, a') →
      s'.step .next = ⟨.idle a', s'.ended ++ [t]⟩) ∧
    ∃ log receipts, holds s'.log log ∧ List.Forall₂ (Carries rt) log receipts ∧
      verifyChain rt receipts = .ok () ∧
      ∀ publicKey read, readChain rt log publicKey = .ok read → verifyChain rt read = .ok () := by
  intro s'
  obtain ⟨log₀, receipts₀, hheld₀, -⟩ := hs.trailed.log
  have hrecorded : s'.WellRecorded holds log₀ :=
    Station.wellRecorded_run laws lawful (hs.wellRecorded hheld₀) events
  have hstage : s'.InStage := Station.inStage_run laws hs.inStage events
  obtain ⟨log, receipts, hheld, htrail⟩ := (Station.trailed_run laws lawful hs.trailed events).log
  refine ⟨?_, ?_, log, receipts, hheld, htrail.carried, htrail.verified, ?_⟩
  · intro a t decision hp
    obtain ⟨r, r', hreceipts, hkind, hkind'⟩ := Station.two_receipts (hstage a t _ hp)
    have hturns : s'.turns = s'.ended ++ [t] := by
      unfold Station.turns
      rw [hp]
    have hdecides : ∀ r ∈ t.receipts, r.decision = decision := by
      intro r hr
      have ht : t ∈ s'.turns := by
        rw [hturns]
        exact List.mem_append_right _ (List.mem_singleton_self t)
      exact (hrecorded.decides t ht r hr).unique ((hrecorded.busy a t _ hp).2 decision rfl)
    refine ⟨log₀ ++ s'.ended.flatMap Turn.lines, r, r', ?_, hreceipts, hkind, hkind',
      hdecides r (by simp [hreceipts]), hdecides r' (by simp [hreceipts])⟩
    have hlog := hrecorded.held
    rw [hturns, List.flatMap_append, List.flatMap_singleton, ← List.append_assoc, Turn.lines,
      hreceipts] at hlog
    unfold Station.log at hlog
    rw [hp] at hlog
    exact hlog
  · intro a t stage e a' hp hraised
    rw [Station.step_next hp, hraised]
    rfl
  · intro publicKey read hread
    exact htrail.verifies laws hread

/-- Three steps into a turn under its first bundle the sample site is about to call the dataplane. -/
theorem recorded_before_applied_sample :
    let s' := Run.run Station.step Sample.station
      ([Sample.startStation, Sample.deliverBundle 10 0] ++ Sample.turn.take 4)
    ∃ a t decision, s'.process = .busy a t (.attempting decision) ∧
      ∃ before r r', a.log = before ++ [receiptBytes t.agent.chain t.now r,
          receiptBytes t.agent.chain t.now r'] ∧ t.receipts = [r, r'] ∧
        r.kind = .str kindDecision ∧ r'.kind = .str kindExecution ∧
        r.decision = decision ∧ r'.decision = decision := by
  intro s'
  have hbegins : Sample.station.Begins fun lines log => lines = log := Station.begins_fresh rfl _
  obtain ⟨a₁, hdelivered, h₁, hbundle₁⟩ := Sample.run_delivered
  obtain ⟨decision, hdecide⟩ : ∃ decision, decide standIn (Sample.bundle 10)
      ⟨[Sample.upAt "fiber0" 0]⟩ (Sample.clock 60) "site-1" false = .ok decision :=
    decide_returns (Sample.validUntil_minute rfl)
  have hready : Ready _ a₁.chain a₁.log a₁ := ⟨rfl, rfl, rfl⟩
  let env := Sample.environment (.ok ()) (.error ⟨.OSError, "netlink socket closed"⟩)
  have hunder : decideUnder standIn env (Sample.bundle 10).toWire ⟨[Sample.upAt "fiber0" 0]⟩
      (Sample.clock 60) "site-1" false = .ok decision := decideUnder_toWire.trans hdecide
  obtain ⟨a₂, log', hreached, -, -⟩ := authorise_returns lawful_standIn lawful_memorySink
    accepting_memorySink hready h₁.counts (Sample.at_current hbundle₁) rfl hunder
  obtain ⟨t, hturn⟩ := Station.run_authorise (s := ⟨.idle a₁, []⟩) rfl hreached
  have hrun : s' = ⟨.busy a₂ t (.attempting decision), []⟩ := by
    have hsteps := Run.run_append Station.step Sample.station
      [Sample.startStation, Sample.deliverBundle 10 0] (Sample.turn.take 4)
    rw [hdelivered] at hsteps
    exact hsteps.trans hturn
  have hp : s'.process = .busy a₂ t (.attempting decision) := congrArg Station.process hrun
  exact ⟨a₂, t, decision, hp,
    (recorded_before_applied lawful_standIn lawful_memorySink hbegins _).1 a₂ t decision hp⟩

end Pilotfish
