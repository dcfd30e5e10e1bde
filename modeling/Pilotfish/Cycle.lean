import Pilotfish.BundleStore
import Pilotfish.Dataplane
import Pilotfish.Decide
import Pilotfish.Receipts

/-!
# One turn of the agent

Pin the bundle, collect evidence, decide and record what was authorised, record that it is being
attempted, enforce, read back and record what the dataplane holds. The source of the evidence
and the dataplane are foreign code: a call of it returns or raises whatever it does, and bundles
may be delivered while it runs.

Results:
1. `recordEntry_cases`: all a record can do; `Ready.written`, `Ready.unwritten`: what it has written,
   whether it returned or raised.
2. `authorise_ok`, `authorise_decided`: a turn that attempts enforcement has written two receipts
   of a decision under what governed at its start.
3. `enforce_answered`, `enforce_unanswered`: what it writes from there on.
4. `enforce_ok`: when it returns.
-/

namespace Pilotfish
open Python

/-- The dataplane does not hold what was decided. -/
def postconditionViolation (complaint : String) : Exc := ⟨.user "PostconditionViolation", complaint⟩

/-! ## The turn -/

/-- A call of foreign code: what it returns or raises, and what was delivered before it did. -/
structure Foreign (α : Type) where
  result : Except Exc α
  deliveries : List Delivery := []

/-- What the rules of a bundle raise, or decide on its classes, if it was read with objects of other
types than the declared ones. -/
abbrev Undeclared := WireBundle → EvidenceSnapshot → DateTime → Except Exc (List ClassEligibility)

/-- What the agent is connected to. `shown` is what `str` gives of an exception of the adapter's, or
raises. -/
structure Environment where
  observe : Foreign (List Observation)
  apply : EligibilityDecision → Foreign Unit
  readback : EligibilityDecision → Foreign Mapping
  undeclared : Undeclared
  shown : Exc → Except Exc Text := fun e => .ok (.characters e.message)

/-- The agent's store with its mark, and its chain with the log. -/
structure Agent (rt : Runtime) (sink : ReadableSink) where
  store : BundleStore rt
  epochs : EpochStore
  chain : ReceiptChain rt
  log : sink.State

section Turn
variable {rt : Runtime} {sink : ReadableSink}

def Agent.accept (d : Delivery) : Effect Exc (Agent rt sink) WireBundle := fun a =>
  let (result, store, epochs) := a.store.accept a.epochs d.faults d.envelopeBytes d.now
  (result, { a with store := store, epochs := epochs })

def Agent.deliver (a : Agent rt sink) (d : Delivery) : Agent rt sink := (Agent.accept d a).2

/-- What recording works on. -/
def Agent.trail (a : Agent rt sink) : sink.State × ReceiptChain rt := (a.log, a.chain)

def Agent.setTrail (t : sink.State × ReceiptChain rt) (a : Agent rt sink) : Agent rt sink :=
  { a with log := t.1, chain := t.2 }

def foreign {α : Type} (call : Foreign α) : Effect Exc (Agent rt sink) α := fun a =>
  (call.result, call.deliveries.foldl Agent.deliver a)

def recordEntry (entry : Entry) : Effect Exc (Agent rt sink) Receipt :=
  Effect.zoom Agent.trail Agent.setTrail (record sink entry)

def decideUnder (rt : Runtime) (env : Environment) (bundle : WireBundle)
    (evidence : EvidenceSnapshot)
    (now : DateTime) (siteId : String) (degraded : Bool) : Except Exc EligibilityDecision :=
  match bundle.declared? with
  | some bundle => decide rt bundle evidence now siteId degraded
  | none => do
      let classes ← env.undeclared bundle (evidence.asOf now) now
      let validUntil ← now.add (← timedelta bundle.decisionTtlS)
      let _ ← rt.dumps bundle.fields
      return {
        siteId := siteId
        decidedAt := now
        validUntil := validUntil
        bundleHash := bundle.hash rt
        evidenceHash := (evidence.asOf now).hash rt
        degraded := degraded
        classes := classes }

/-- A bundle of the declared types is decided under as it is. -/
theorem decideUnder_toWire {env : Environment} {bundle : PolicyBundle}
    {evidence : EvidenceSnapshot} {now : DateTime} {siteId : String} {degraded : Bool} :
    decideUnder rt env bundle.toWire evidence now siteId degraded =
      decide rt bundle evidence now siteId degraded := by
  rw [decideUnder, PolicyBundle.declared?_toWire]

theorem degraded_of_decideUnder {env : Environment} {bundle : WireBundle}
    {evidence : EvidenceSnapshot} {now : DateTime} {siteId : String} {degraded : Bool}
    {decision : EligibilityDecision}
    (h : decideUnder rt env bundle evidence now siteId degraded = .ok decision) :
    decision.degraded = degraded := by
  unfold decideUnder at h
  cases hdeclared : bundle.declared? with
  | some b =>
    rw [hdeclared] at h
    exact (decide_ok h).2.2.2.2.2.1
  | none =>
    rw [hdeclared] at h
    obtain ⟨classes, -, h⟩ := bind_eq_ok_iff.mp h
    obtain ⟨us, -, h⟩ := bind_eq_ok_iff.mp h
    obtain ⟨validUntil, -, h⟩ := bind_eq_ok_iff.mp h
    obtain ⟨data, -, h⟩ := bind_eq_ok_iff.mp h
    cases h
    rfl

/-- What is recorded of a dataplane that was read back. -/
def observed (decision : EligibilityDecision) (now : DateTime)
    (observedStateHash complaint : String) :
    Entry where
  decision := decision
  now := now
  kind := kindEffect
  outcome := if complaint ≠ "" then outcomePostconditionFailed else outcomeEnforced
  observedStateHash := observedStateHash
  detail := .characters complaint

variable (env : Environment) (siteId : String) (now : DateTime)

/-- What is recorded of a dataplane that refused. -/
def refused (decision : EligibilityDecision) (now : DateTime) (exc : Exc) (shown : Text) :
    Entry where
  decision := decision
  now := now
  kind := kindEffect
  outcome := outcomeEnforcementError
  detail := shown.after (exc.name ++ ": ")

/-- A turn up to where it acts. -/
def authorise : Effect Exc (Agent rt sink) EligibilityDecision := do
  let (bundle, degraded) ← Effect.read fun a => a.store.current now
  let observations ← foreign env.observe
  let decision ← Effect.lift (decideUnder rt env bundle ⟨observations⟩ now siteId degraded)
  let _ ← recordEntry { decision := decision, now := now }
  let _ ← recordEntry { decision := decision, now := now, kind := kindExecution }
  return decision

/-- Record that applying raised; what showing the exception raises is not recorded. -/
def recordRefusal (decision : EligibilityDecision) (exc : Exc) :
    Effect Exc (Agent rt sink) Receipt := do
  let shown ← Effect.lift (env.shown exc)
  recordEntry (refused decision now exc shown)

/-- The rest of it. -/
def enforce (decision : EligibilityDecision) : Effect Exc (Agent rt sink) EligibilityDecision := do
  tryCatch (foreign (env.apply decision)) fun exc => do
    -- a failure to apply is recorded before it is raised; a failure to read back is not
    let _ ← recordRefusal env now decision exc
    throw exc
  let actual ← foreign (env.readback decision)
  let complaint ← Effect.lift (postconditionComplaint actual decision.classes)
  let observedStateHash ← Effect.lift (stateHash rt actual)
  let _ ← recordEntry (observed decision now observedStateHash complaint)
  if complaint ≠ "" then throw (postconditionViolation complaint)
  else return decision

def runOnce : Effect Exc (Agent rt sink) EligibilityDecision := do
  let decision ← authorise env siteId now
  enforce env now decision

end Turn

/-! ## What a turn writes -/

/-- Receipts for one decision were appended, of these kinds and in this order. -/
def Recorded {rt : Runtime} (chain : ReceiptChain rt) (now : DateTime)
    (decision : EligibilityDecision)
    (kinds : List String) (log log' : List Bytes) : Prop :=
  ∃ receipts : List Receipt, receipts.map (·.kind) = kinds.map Value.str ∧
    (∀ r ∈ receipts, r.decision = decision) ∧ log' = log ++ receipts.map (receiptBytes chain now)

/-- Two chains of one site and one key. -/
structure SameSite {rt : Runtime} (chain chain' : ReceiptChain rt) : Prop where
  siteId : chain'.siteId = chain.siteId
  key : chain'.key = chain.key

theorem SameSite.trans {rt : Runtime} {c c' c'' : ReceiptChain rt} (h : SameSite c c')
    (h' : SameSite c' c'') : SameSite c c'' :=
  ⟨h'.siteId.trans h.siteId, h'.key.trans h.key⟩

theorem SameSite.receiptBytes {rt : Runtime} {c c' : ReceiptChain rt} (h : SameSite c c')
    (now : DateTime) : receiptBytes c' now = Pilotfish.receiptBytes c now := by
  funext r
  rw [Pilotfish.receiptBytes, Pilotfish.receiptBytes, h.siteId, h.key]

theorem Recorded.append {rt : Runtime} {c c' : ReceiptChain rt} {now : DateTime}
    {decision : EligibilityDecision} {kinds kinds' : List String} {log log' log'' : List Bytes}
    (hsite : SameSite c c') (h : Recorded c now decision kinds log log')
    (h' : Recorded c' now decision kinds' log' log'') :
    Recorded c now decision (kinds ++ kinds') log log'' := by
  obtain ⟨rs, hkinds, hdecision, rfl⟩ := h
  obtain ⟨rs', hkinds', hdecision', rfl⟩ := h'
  refine ⟨rs ++ rs', by rw [List.map_append, List.map_append, hkinds, hkinds'], fun r hr => ?_, ?_⟩
  · exact (List.mem_append.mp hr).elim (hdecision r) (hdecision' r)
  · rw [hsite.receiptBytes, List.map_append, List.append_assoc]

theorem Recorded.length {rt : Runtime} {c : ReceiptChain rt} {now : DateTime}
    {decision : EligibilityDecision} {kinds : List String} {log log' : List Bytes}
    (h : Recorded c now decision kinds log log') : log'.length = log.length + kinds.length := by
  obtain ⟨rs, hkinds, -, rfl⟩ := h
  rw [List.length_append, List.length_map, ← List.length_map (f := Value.str), ← hkinds,
    List.length_map]

/-- The chain's number can be counted on from. -/
def Counts {rt : Runtime} (chain : ReceiptChain rt) : Prop := ∃ seq, chain.seq.succ = .ok seq

theorem Value.succ_succ {v w : Value} (h : v.succ = .ok w) : ∃ u, w.succ = .ok u := by
  cases v with
  | bool b => cases h; exact ⟨_, rfl⟩
  | int n => cases h; exact ⟨_, rfl⟩
  | float x => cases x <;> (cases h; exact ⟨_, rfl⟩)
  | _ => cases h

/-- No append to a sink that holds a log raises. -/
def ReadableSink.Accepting (sink : ReadableSink) (holds : sink.State → List Bytes → Prop) : Prop :=
  ∀ {s log r}, holds s log → r ≠ [] → ∃ s', sink.append r s = (.ok (), s')

theorem accepting_memorySink : memoryReceiptSink.Accepting fun lines log => lines = log :=
  fun _ _ => ⟨_, rfl⟩

section Phases
variable {rt : Runtime} (laws : rt.Lawful) {sink : ReadableSink}
  {holds : sink.State → List Bytes → Prop} (lawful : sink.Lawful holds) {a a' : Agent rt sink}
  {log : List Bytes} {env : Environment} {siteId : String} {now : DateTime}
  {decision : EligibilityDecision}

theorem foreign_eq {α : Type} {call : Foreign α} {result : Except Exc α} (h : call.result = result)
    (a : Agent rt sink) : foreign call a = (result, (foreign call a).2) := Prod.ext h rfl

/-- Deliveries change the store and the mark only. -/
theorem deliveries_chain_log (deliveries : List Delivery) (a : Agent rt sink) :
    (deliveries.foldl Agent.deliver a).chain = a.chain ∧
    (deliveries.foldl Agent.deliver a).log = a.log := by
  induction deliveries generalizing a with
  | nil => exact ⟨rfl, rfl⟩
  | cons d deliveries ih => exact ih (a.deliver d)

theorem Counts.foreign (h : Counts a.chain) {α : Type} (call : Foreign α) :
    Counts (foreign call a).2.chain := (deliveries_chain_log call.deliveries a).1 ▸ h

/-- An agent of the site of a chain, with a log. -/
structure Ready (holds : sink.State → List Bytes → Prop) (chain : ReceiptChain rt)
    (log : List Bytes) (a : Agent rt sink) : Prop where
  held : holds a.log log
  site : SameSite chain a.chain

theorem Ready.foreign {chain : ReceiptChain rt} (h : Ready holds chain log a) {α : Type}
    (call : Foreign α) : Ready holds chain log (foreign call a).2 := by
  obtain ⟨hchain, hlog⟩ := deliveries_chain_log call.deliveries a
  exact ⟨hlog ▸ h.held, hchain ▸ h.site⟩

theorem recordEntry_of_record {entry : Entry} {result : Except Exc Receipt} {s' : sink.State}
    {chain' : ReceiptChain rt} (h : record sink entry (a.log, a.chain) = (result, (s', chain'))) :
    recordEntry entry a = (result, { a with log := s', chain := chain' }) := by
  have hrecord : record sink entry a.trail = (result, (s', chain')) := h
  exact Effect.zoom_eq hrecord

include laws in
/-- All that a record can do: nothing, or an append that raises or moves the head. -/
theorem recordEntry_cases (entry : Entry) (a : Agent rt sink) :
    (∃ e, recordEntry entry a = (.error e, a)) ∨
    ∃ seq, a.chain.seq.succ = .ok seq ∧ entry.detail.Encodable ∧
      ((∃ e s', sink.append (receiptBytes a.chain entry.now (a.chain.receipt seq entry)) a.log =
          (.error e, s') ∧ recordEntry entry a = (.error e, { a with log := s' })) ∨
        ∃ s', sink.append (receiptBytes a.chain entry.now (a.chain.receipt seq entry)) a.log =
            (.ok (), s') ∧
          recordEntry entry a = (.ok (a.chain.receipt seq entry),
            { a with log := s', chain := a.chain.advance (a.chain.receipt seq entry) })) := by
  rcases record_cases laws sink entry a.log a.chain with ⟨e, hrecord⟩ |
    ⟨seq, hseq, hentry, ⟨e, s', happend, hrecord⟩ | ⟨s', happend, hrecord⟩⟩
  · exact .inl ⟨e, recordEntry_of_record hrecord⟩
  · exact .inr ⟨seq, hseq, hentry, .inl ⟨e, s', happend, recordEntry_of_record hrecord⟩⟩
  · exact .inr ⟨seq, hseq, hentry, .inr ⟨s', happend, recordEntry_of_record hrecord⟩⟩

include laws lawful in
/-- A record that returned appended the receipt it returned. -/
theorem Ready.written {chain : ReceiptChain rt} (h : Ready holds chain log a) {entry : Entry}
    {r : Receipt} (hrecord : recordEntry entry a = (.ok r, a')) :
    Ready holds chain (log ++ [receiptBytes chain entry.now r]) a' ∧
      ∃ seq, a.chain.seq.succ = .ok seq ∧ a'.chain.seq = seq ∧ r = a.chain.receipt seq entry := by
  rcases recordEntry_cases laws entry a with ⟨e, hraised⟩ |
    ⟨seq, hseq, -, ⟨e, s', -, hraised⟩ | ⟨s', happend, hreturned⟩⟩
  · cases hraised.symm.trans hrecord
  · cases hraised.symm.trans hrecord
  · cases hreturned.symm.trans hrecord
    refine ⟨⟨?_, ⟨h.site.siteId, h.site.key⟩⟩, seq, hseq, rfl, rfl⟩
    rw [← h.site.receiptBytes]
    exact lawful.append_ok h.held (receiptBytes_ne_nil laws _ _ _) happend

include laws lawful in
/-- One that raised appended nothing. -/
theorem Ready.unwritten {chain : ReceiptChain rt} (h : Ready holds chain log a) {entry : Entry}
    {e : Exc} (hrecord : recordEntry entry a = (.error e, a')) : Ready holds chain log a' := by
  rcases recordEntry_cases laws entry a with ⟨e', hraised⟩ |
    ⟨seq, -, -, ⟨e', s', happend, hraised⟩ | ⟨s', -, hreturned⟩⟩
  · cases hraised.symm.trans hrecord
    exact h
  · cases hraised.symm.trans hrecord
    exact ⟨lawful.append_error h.held happend, h.site⟩
  · cases hreturned.symm.trans hrecord

include laws lawful in
theorem Ready.record {chain : ReceiptChain rt} (h : Ready holds chain log a) {entry : Entry}
    {r : Receipt} (hrecord : recordEntry entry a = (.ok r, a')) :
    ∃ log', Ready holds chain log' a' ∧ Counts a'.chain ∧
      Recorded chain entry.now entry.decision [entry.kind] log log' := by
  obtain ⟨hready, seq, hseq, hseq', rfl⟩ := h.written laws lawful hrecord
  have hcounts : Counts a'.chain := by
    rw [Counts, hseq']
    exact Value.succ_succ hseq
  exact ⟨_, hready, hcounts, [a.chain.receipt seq entry], rfl, by simp [ReceiptChain.receipt], rfl⟩

include laws in
theorem Counts.recordEntry (h : Counts a.chain) (entry : Entry) :
    Counts (recordEntry entry a).2.chain := by
  rcases recordEntry_cases laws entry a with ⟨e, hraised⟩ |
    ⟨seq, hseq, -, ⟨e, s', -, hraised⟩ | ⟨s', -, hreturned⟩⟩
  · rwa [hraised]
  · rwa [hraised]
  · rw [hreturned]
    exact Value.succ_succ hseq

include laws in
/-- It does return when the sink accepts appends and the detail can be encoded. -/
theorem Ready.record_returns (accepting : sink.Accepting holds) {chain : ReceiptChain rt}
    (h : Ready holds chain log a) (hcounts : Counts a.chain) (entry : Entry)
    (hentry : entry.detail.Encodable) : ∃ r a', recordEntry entry a = (.ok r, a') := by
  obtain ⟨seq, hseq⟩ := hcounts
  obtain ⟨s', happend⟩ := accepting (r := receiptBytes a.chain entry.now (a.chain.receipt seq entry))
    h.held (receiptBytes_ne_nil laws _ _ _)
  have hrecord := record_eq laws sink entry a.log hseq hentry
  rw [happend] at hrecord
  exact ⟨_, _, recordEntry_of_record hrecord⟩

/-! ## Up to where a turn acts -/

include laws lawful in
/-- A turn that attempts enforcement has written its first two receipts. -/
theorem authorise_ok {chain : ReceiptChain rt} (h : Ready holds chain log a)
    (hreached : authorise env siteId now a = (.ok decision, a')) :
    ∃ log', Ready holds chain log' a' ∧ Counts a'.chain ∧
      Recorded chain now decision [kindDecision, kindExecution] log log' := by
  unfold authorise at hreached
  rw [Effect.read_bind] at hreached
  obtain ⟨observations, a₁, hobserve, hreached⟩ := Effect.bind_eq_ok_iff.mp hreached
  obtain ⟨d, a₂, hdecide, hreached⟩ := Effect.bind_eq_ok_iff.mp hreached
  obtain ⟨r₁, a₃, hfirst, hreached⟩ := Effect.bind_eq_ok_iff.mp hreached
  obtain ⟨r₂, a₄, hsecond, hreached⟩ := Effect.bind_eq_ok_iff.mp hreached
  cases hreached
  have h₁ : Ready holds chain log a₁ := by
    have hforeign := h.foreign env.observe
    rwa [hobserve] at hforeign
  obtain rfl : a₁ = a₂ := congrArg Prod.snd hdecide
  obtain ⟨log₁, h₂, -, hrecorded₁⟩ := h₁.record laws lawful hfirst
  obtain ⟨log₂, h₃, hcounts, hrecorded₂⟩ := h₂.record laws lawful hsecond
  exact ⟨log₂, h₃, hcounts, hrecorded₁.append ⟨rfl, rfl⟩ hrecorded₂⟩

/-- Its decision was taken under what governed at its start. -/
theorem authorise_decided (hreached : (authorise env siteId now a).1 = .ok decision) :
    ∃ observations, env.observe.result = .ok observations ∧
      decideUnder rt env (a.store.current now).1 ⟨observations⟩ now siteId
        (a.store.current now).2 = .ok decision := by
  unfold authorise at hreached
  rw [Effect.read_bind] at hreached
  obtain ⟨observations, a₁, hobserve, hreached⟩ :=
    Effect.bind_eq_ok_iff.mp (Prod.ext hreached rfl)
  obtain ⟨d, a₂, hdecide, hreached⟩ := Effect.bind_eq_ok_iff.mp hreached
  obtain ⟨r₁, a₃, hfirst, hreached⟩ := Effect.bind_eq_ok_iff.mp hreached
  obtain ⟨r₂, a₄, hsecond, hreached⟩ := Effect.bind_eq_ok_iff.mp hreached
  cases hreached
  exact ⟨observations, congrArg Prod.fst hobserve, congrArg Prod.fst hdecide⟩

include laws lawful in
/-- A turn with evidence, a decision and a sink that accepts appends gets there. -/
theorem authorise_returns (accepting : sink.Accepting holds) (h : Ready holds a.chain log a)
    (hcounts : Counts a.chain) {observations : List Observation}
    {bundle : WireBundle} {degraded : Bool} (hcurrent : a.store.current now = (bundle, degraded))
    (hobserve : env.observe.result = .ok observations)
    (hdecide : decideUnder rt env bundle ⟨observations⟩ now siteId degraded = .ok decision) :
    ∃ a' log', authorise env siteId now a = (.ok decision, a') ∧ Ready holds a.chain log' a' ∧
      Counts a'.chain := by
  let a₁ : Agent rt sink := (foreign env.observe a).2
  have h₁ : Ready holds a.chain log a₁ := h.foreign env.observe
  have hforeign : foreign env.observe a = (.ok observations, a₁) := foreign_eq hobserve a
  obtain ⟨r₁, a₂, hfirst⟩ := h₁.record_returns laws accepting (hcounts.foreign env.observe)
    { decision := decision, now := now } ⟨"", rfl⟩
  obtain ⟨log₁, h₂, hcounts₂, -⟩ := h₁.record laws lawful hfirst
  obtain ⟨r₂, a₃, hsecond⟩ := h₂.record_returns laws accepting hcounts₂
    { decision := decision, now := now, kind := kindExecution } ⟨"", rfl⟩
  obtain ⟨log₂, h₃, hcounts₃, -⟩ := h₂.record laws lawful hsecond
  refine ⟨a₃, log₂, ?_, h₃, hcounts₃⟩
  unfold authorise
  rw [Effect.read_bind, hcurrent]
  dsimp only
  rw [Effect.bind_of_ok hforeign, Effect.lift_bind_of_ok hdecide,
    Effect.bind_of_ok hfirst, Effect.bind_of_ok hsecond]
  rfl

/-! ## From there on -/

theorem runOnce_of_authorise (hreached : authorise env siteId now a = (.ok decision, a')) :
    runOnce env siteId now a = enforce env now decision a' := Effect.bind_of_ok hreached

/-- Applying raised what can be shown and encoded, or returned, and what was read back can be hashed
and checked. -/
def Answered (rt : Runtime) (env : Environment) (decision : EligibilityDecision) : Prop :=
  (∃ e text, (env.apply decision).result = .error e ∧ env.shown e = .ok text ∧ text.Encodable) ∨
  (env.apply decision).result = .ok () ∧
    ∃ actual, (env.readback decision).result = .ok actual ∧ Auditable rt actual decision.classes

theorem recordRefusal_of_shown {e : Exc} {text : Text} (h : env.shown e = .ok text) :
    recordRefusal env now decision e a = recordEntry (refused decision now e text) a :=
  Effect.lift_bind_of_ok h _ a

include laws in
/-- A refusal is recorded only where it could be shown and encoded. -/
theorem recordRefusal_ok {e : Exc} {r : Receipt}
    (h : recordRefusal env now decision e a = (.ok r, a')) :
    ∃ text, env.shown e = .ok text ∧ text.Encodable := by
  cases hshown : env.shown e with
  | error e' =>
    have hraised : recordRefusal env now decision e a = (.error e', a) :=
      Effect.lift_bind_of_error hshown _ a
    cases hraised.symm.trans h
  | ok text =>
    rw [recordRefusal_of_shown hshown] at h
    rcases recordEntry_cases laws (refused decision now e text) a with ⟨e', hraised⟩ |
      ⟨-, -, htext, -⟩
    · cases hraised.symm.trans h
    · exact ⟨text, rfl, Text.encodable_after.mp htext⟩

include laws lawful in
theorem Ready.unrefused {chain : ReceiptChain rt} (h : Ready holds chain log a) {e e' : Exc}
    (hrecord : recordRefusal env now decision e a = (.error e', a')) : Ready holds chain log a' := by
  cases hshown : env.shown e with
  | error e' =>
    have hraised : recordRefusal env now decision e a = (.error e', a) :=
      Effect.lift_bind_of_error hshown _ a
    cases hraised.symm.trans hrecord
    exact h
  | ok text =>
    rw [recordRefusal_of_shown hshown] at hrecord
    exact h.unwritten laws lawful hrecord

/-- Applied, read back, checked and hashed: the turn ends with its last record. -/
theorem enforce_observed {actual : Mapping} {complaint stateHash : String} {r : Receipt}
    (happly : (env.apply decision).result = .ok ())
    (hreadback : (env.readback decision).result = .ok actual)
    (hcomplaint : postconditionComplaint actual decision.classes = .ok complaint)
    (hhash : Pilotfish.stateHash rt actual = .ok stateHash)
    (hrecord : recordEntry (observed decision now stateHash complaint)
      (foreign (env.readback decision) (foreign (env.apply decision) a).2).2 = (.ok r, a')) :
    enforce env now decision a =
      (if complaint ≠ "" then .error (postconditionViolation complaint) else .ok decision, a') := by
  unfold enforce
  rw [Effect.bind_of_ok (Effect.tryCatch_of_ok (foreign_eq happly a)),
    Effect.bind_of_ok (foreign_eq hreadback _),
    Effect.lift_bind_of_ok hcomplaint, Effect.lift_bind_of_ok hhash, Effect.bind_of_ok hrecord]
  split_ifs <;> rfl

include laws lawful in
/-- The effect of an answered attempt is recorded. -/
theorem enforce_answered (accepting : sink.Accepting holds) {chain : ReceiptChain rt}
    (h : Ready holds chain log a) (hcounts : Counts a.chain) (hanswered : Answered rt env decision) :
    ∃ log', Ready holds chain log' (enforce env now decision a).2 ∧
      Recorded chain now decision [kindEffect] log log' := by
  let a₁ : Agent rt sink := (foreign (env.apply decision) a).2
  have h₁ : Ready holds chain log a₁ := h.foreign (env.apply decision)
  have hcounts₁ : Counts a₁.chain := hcounts.foreign (env.apply decision)
  rcases hanswered with ⟨e, text, happly, hshown, htext⟩ | ⟨happly, actual, hreadback, haudit⟩
  · have hforeign : foreign (env.apply decision) a = (.error e, a₁) := foreign_eq happly a
    obtain ⟨r, a₂, hrecord⟩ := h₁.record_returns laws accepting hcounts₁
      (refused decision now e text) (Text.encodable_after.mpr htext)
    obtain ⟨log', h₂, -, hrecorded⟩ := h₁.record laws lawful hrecord
    refine ⟨log', ?_, hrecorded⟩
    unfold enforce
    rw [Effect.bind_of_error ((Effect.tryCatch_of_error hforeign).trans
      (Effect.bind_of_ok ((recordRefusal_of_shown hshown).trans hrecord)))]
    exact h₂
  · obtain ⟨⟨complaint, hcomplaint⟩, stateHash, hhash⟩ := (auditable_iff laws).mp haudit
    obtain ⟨r, a₂, hrecord⟩ := (h₁.foreign (env.readback decision)).record_returns laws accepting
      (hcounts₁.foreign (env.readback decision))
      (observed decision now stateHash complaint) ⟨complaint, rfl⟩
    obtain ⟨log', h₂, -, hrecorded⟩ :=
      (h₁.foreign (env.readback decision)).record laws lawful hrecord
    rw [enforce_observed happly hreadback hcomplaint hhash hrecord]
    exact ⟨log', h₂, hrecorded⟩

include laws in
/-- A turn whose read-back conforms ends with that on record. -/
theorem enforce_conforming (accepting : sink.Accepting holds) {chain : ReceiptChain rt}
    (h : Ready holds chain log a) (hcounts : Counts a.chain)
    (happly : (env.apply decision).result = .ok ()) {actual : Mapping}
    (hreadback : (env.readback decision).result = .ok actual)
    (haudit : Auditable rt actual decision.classes)
    (hconforms : ∀ cls ∈ decision.classes, Conforms actual cls) :
    ∃ before stateHash r after, recordEntry (observed decision now stateHash "") before =
        (.ok r, after) ∧ enforce env now decision a = (.ok decision, after) := by
  obtain ⟨-, stateHash, hhash⟩ := (auditable_iff laws).mp haudit
  have h₁ := h.foreign (env.apply decision)
  have hcounts₁ : Counts (foreign (env.apply decision) a).2.chain :=
    hcounts.foreign (env.apply decision)
  obtain ⟨r, a₂, hrecord⟩ := (h₁.foreign (env.readback decision)).record_returns laws accepting
    (hcounts₁.foreign (env.readback decision)) (observed decision now stateHash "") ⟨"", rfl⟩
  exact ⟨_, stateHash, r, a₂, hrecord, enforce_observed happly hreadback
    (postconditionComplaint_eq_empty.mpr hconforms) hhash hrecord⟩

include laws in
/-- It returns. -/
theorem enforce_returns (accepting : sink.Accepting holds) {chain : ReceiptChain rt}
    (h : Ready holds chain log a) (hcounts : Counts a.chain)
    (happly : (env.apply decision).result = .ok ()) {actual : Mapping}
    (hreadback : (env.readback decision).result = .ok actual)
    (haudit : Auditable rt actual decision.classes)
    (hconforms : ∀ cls ∈ decision.classes, Conforms actual cls) :
    (enforce env now decision a).1 = .ok decision := by
  obtain ⟨_, _, _, _, -, henforce⟩ :=
    enforce_conforming laws accepting h hcounts happly hreadback haudit hconforms
  exact congrArg Prod.fst henforce

include laws lawful in
/-- The effect of any other attempt is not. -/
theorem enforce_unanswered {chain : ReceiptChain rt} (h : Ready holds chain log a)
    (hunanswered : ¬Answered rt env decision) :
    Ready holds chain log (enforce env now decision a).2 := by
  let a₁ : Agent rt sink := (foreign (env.apply decision) a).2
  have h₁ : Ready holds chain log a₁ := h.foreign (env.apply decision)
  unfold enforce
  cases happly : (env.apply decision).result with
  | error e =>
    have hforeign : foreign (env.apply decision) a = (.error e, a₁) := foreign_eq happly a
    rcases hrecord : recordRefusal env now decision e a₁ with ⟨e' | r, a₂⟩
    · rw [Effect.bind_of_error ((Effect.tryCatch_of_error hforeign).trans
        (Effect.bind_of_error hrecord))]
      exact h₁.unrefused laws lawful hrecord
    · obtain ⟨text, hshown, htext⟩ := recordRefusal_ok laws hrecord
      exact absurd (.inl ⟨e, text, happly, hshown, htext⟩) hunanswered
  | ok _ =>
    let a₂ : Agent rt sink := (foreign (env.readback decision) a₁).2
    have h₂ : Ready holds chain log a₂ := h₁.foreign (env.readback decision)
    rw [Effect.bind_of_ok (Effect.tryCatch_of_ok (foreign_eq happly a))]
    cases hreadback : (env.readback decision).result with
    | error e =>
      rw [Effect.bind_of_error (foreign_eq hreadback a₁)]
      exact h₂
    | ok actual =>
      rw [Effect.bind_of_ok (foreign_eq hreadback a₁)]
      cases hcomplaint : postconditionComplaint actual decision.classes with
      | error e =>
        rw [Effect.lift_bind_of_error rfl]
        exact h₂
      | ok complaint =>
        rw [Effect.lift_bind_of_ok rfl]
        -- everything returned, which is what it is to be answered
        cases hhash : stateHash rt actual with
        | error e =>
          rw [Effect.lift_bind_of_error rfl]
          exact h₂
        | ok stateHash =>
          have haudit := (auditable_iff laws).mpr ⟨⟨complaint, hcomplaint⟩, stateHash, hhash⟩
          exact absurd (.inr ⟨happly, actual, hreadback, haudit⟩) hunanswered

/-- A turn returns when the check found nothing. -/
theorem enforce_ok {d : EligibilityDecision} (h : (enforce env now decision a).1 = .ok d) :
    d = decision ∧ ∃ actual, (env.readback decision).result = .ok actual ∧
      postconditionComplaint actual decision.classes = .ok "" ∧
      ∃ observed, stateHash rt actual = .ok observed := by
  unfold enforce at h
  obtain ⟨-, a₁, -, h⟩ := Effect.bind_eq_ok_iff.mp (Prod.ext h rfl)
  obtain ⟨actual, a₂, hreadback, h⟩ := Effect.bind_eq_ok_iff.mp h
  obtain ⟨complaint, a₃, hcomplaint, h⟩ := Effect.bind_eq_ok_iff.mp h
  obtain ⟨observed, a₄, hhash, h⟩ := Effect.bind_eq_ok_iff.mp h
  obtain ⟨r, a₅, -, h⟩ := Effect.bind_eq_ok_iff.mp h
  split_ifs at h with hempty
  · cases h
  · cases h
    obtain rfl : complaint = "" := not_not.mp hempty
    exact ⟨rfl, actual, congrArg Prod.fst hreadback, congrArg Prod.fst hcomplaint, observed,
      congrArg Prod.fst hhash⟩

/-! ## The bundle a turn leaves in force -/

/-- Nothing is delivered while the foreign code runs. -/
structure Undisturbed (env : Environment) : Prop where
  observe : env.observe.deliveries = []
  apply : ∀ d, (env.apply d).deliveries = []
  readback : ∀ d, (env.readback d).deliveries = []

/-- Such a turn moves the agent only as recording does. -/
theorem runOnce_within (h : Undisturbed env) {R : Agent rt sink → Agent rt sink → Prop}
    (refl : ∀ a, R a a) (trans : ∀ {a b c}, R a b → R b c → R a c)
    (hrecord : ∀ entry, Effect.Within R (recordEntry entry : Effect Exc (Agent rt sink) Receipt)) :
    Effect.Within R (runOnce env siteId now : Effect Exc (Agent rt sink) _) := by
  have hforeign {α : Type} {call : Foreign α} (hnone : call.deliveries = []) :
      Effect.Within R (foreign call : Effect Exc (Agent rt sink) α) := fun a => by
    rw [foreign, hnone]
    exact refl a
  have hlift {α : Type} (r : Except Exc α) :
      Effect.Within R (Effect.lift r : Effect Exc (Agent rt sink) α) := refl
  have hpure {α : Type} (r : Except Exc α) :
      Effect.Within R (fun a : Agent rt sink => (r, a)) := refl
  have hbind {α β : Type} {m : Effect Exc (Agent rt sink) α} {f : α → Effect Exc (Agent rt sink) β}
      (hm : Effect.Within R m) (hf : ∀ x, Effect.Within R (f x)) : Effect.Within R (m >>= f) :=
    .bind (R := R) trans hm hf
  unfold runOnce authorise enforce
  refine hbind (hbind refl fun current => ?_) fun decision => ?_
  · exact hbind (hforeign h.observe) fun _ => hbind (hlift _) fun _ => hbind (hrecord _) fun _ =>
      hbind (hrecord _) fun _ => hpure _
  · refine hbind (.tryCatch (R := R) trans (hforeign (h.apply decision)) fun _ =>
      hbind (hbind (hlift _) fun _ => hrecord _) fun _ => hpure _) fun _ => ?_
    refine hbind (hforeign (h.readback decision)) fun _ => hbind (hlift _) fun _ =>
      hbind (hlift _) fun _ => hbind (hrecord _) fun _ => ?_
    split_ifs
    · exact hpure _
    · exact hpure _

def SameStore (a b : Agent rt sink) : Prop := b.store = a.store

/-- Such a turn does not touch the store. -/
theorem runOnce_sameStore (h : Undisturbed env) :
    Effect.Within SameStore (runOnce env siteId now : Effect Exc (Agent rt sink) _) :=
  runOnce_within h (fun _ => rfl) (fun hab hbc => Eq.trans hbc hab) fun _ _ => rfl

end Phases

end Pilotfish
