import Pilotfish.Cycle
import Pilotfish.Run

/-!
# One turn after another

Processes take turns over one epoch store and one log. Bundles are delivered between any two
steps of a turn and while foreign code runs; a process may end anywhere, and the next one builds
its store over the mark and its chain from the log.

Results:
1. `moves_step`: what a step can do, from which every invariant of a run is derived.
2. `run_turn`: the steps of a turn, when nothing lands between them, are a call of `runOnce`.
3. `goes_next`: what a step of a turn writes is a receipt of what the turn decides.
4. `wellRecorded_run`: the log is the receipts of the turns, one turn after the other, and all
   receipts of a turn are of what it decided under what it pinned.
-/

namespace Pilotfish
open Python

/-- A call of `run_once`: the agent it was made of, and what it has written. -/
structure Turn (rt : Runtime) (sink : ReadableSink) where
  agent : Agent rt sink
  env : Environment
  siteId : String
  now : DateTime
  receipts : List Receipt := []

namespace Turn
variable {rt : Runtime} {sink : ReadableSink}

/-- What was current at its start. -/
def pinned (t : Turn rt sink) : WireBundle × Bool := t.agent.store.current t.now

def write (t : Turn rt sink) (receipt : Option Receipt) : Turn rt sink :=
  { t with receipts := t.receipts ++ receipt.toList }

/-- Its part of the log. -/
def lines (t : Turn rt sink) : List Bytes := t.receipts.map (receiptBytes t.agent.chain t.now)

/-- The sequences of the bundles behind its receipts that are not marked degraded. -/
def sequences (t : Turn rt sink) : List Value :=
  (t.receipts.filter fun r => !r.decision.degraded).map fun _ => t.pinned.1.sequence

/-- What is decided under what it pinned. -/
def Decides (t : Turn rt sink) (decision : EligibilityDecision) : Prop :=
  ∃ observations, t.env.observe.result = .ok observations ∧
    decideUnder rt t.env t.pinned.1 ⟨observations⟩ t.now t.siteId t.pinned.2 = .ok decision

/-- All its receipts carry one decision, taken under what was current at its start, and are marked
degraded exactly when that was the floor. -/
structure OnePolicy (t : Turn rt sink) : Prop where
  decided : ∀ r ∈ t.receipts, t.Decides r.decision
  same : ∀ r ∈ t.receipts, ∀ r' ∈ t.receipts, r.decision = r'.decision
  degraded : ∀ r ∈ t.receipts,
    r.decision.degraded = true ↔ t.pinned = (t.agent.store.floor, true)

end Turn

/-! ## The steps of a turn -/

/-- What a turn has behind it. -/
inductive Stage
  | pinned
  | decided (decision : EligibilityDecision)
  | authorised (decision : EligibilityDecision)
  | attempting (decision : EligibilityDecision)
  | failed (decision : EligibilityDecision) (exc : Exc)
  | applied (decision : EligibilityDecision)
  | audited (decision : EligibilityDecision) (observedStateHash complaint : String)

namespace Stage
variable {rt : Runtime} {sink : ReadableSink}

def decision? : Stage → Option EligibilityDecision
  | pinned => none
  | decided decision => some decision
  | authorised decision => some decision
  | attempting decision => some decision
  | failed decision _ => some decision
  | applied decision => some decision
  | audited decision _ _ => some decision

/-- What is delivered while the foreign code of the next step runs. -/
def deliveries (t : Turn rt sink) : Stage → List Delivery
  | pinned => t.env.observe.deliveries
  | attempting decision => (t.env.apply decision).deliveries
  | applied decision => (t.env.readback decision).deliveries
  | _ => []

def recordThen (entry : Entry) (stage : Option Stage) :
    Effect Exc (Agent rt sink) (Option Receipt × Option Stage) := do
  let receipt ← recordEntry entry
  return (some receipt, stage)

/-- The next step: the receipt it writes, if it writes one, and the stage it leads to, if it is
not the last. -/
def next (t : Turn rt sink) : Stage → Effect Exc (Agent rt sink) (Option Receipt × Option Stage)
  | pinned => do
      let observations ← foreign t.env.observe
      let decision ← Effect.lift
        (decideUnder rt t.env t.pinned.1 ⟨observations⟩ t.now t.siteId t.pinned.2)
      return (none, some (decided decision))
  | decided decision =>
      recordThen { decision := decision, now := t.now } (some (authorised decision))
  | authorised decision =>
      recordThen { decision := decision, now := t.now, kind := kindExecution }
        (some (attempting decision))
  | attempting decision =>
      tryCatch (do foreign (t.env.apply decision); return (none, some (applied decision)))
        fun exc => return (none, some (failed decision exc))
  | failed decision exc => do
      let shown ← Effect.lift (t.env.shown exc)
      recordThen (refused decision t.now exc shown) none
  | applied decision => do
      let actual ← foreign (t.env.readback decision)
      let complaint ← Effect.lift (postconditionComplaint actual decision.classes)
      let observedStateHash ← Effect.lift (stateHash rt actual)
      return (none, some (audited decision observedStateHash complaint))
  | audited decision observedStateHash complaint =>
      recordThen (observed decision t.now observedStateHash complaint) none

section Attempting
variable {t : Turn rt sink} {decision : EligibilityDecision} {a a' : Agent rt sink}

theorem next_attempting_of_error {e : Exc}
    (h : foreign (t.env.apply decision) a = (.error e, a')) :
    next t (.attempting decision) a = (.ok (none, some (.failed decision e)), a') :=
  Effect.tryCatch_of_error (Effect.bind_of_error h)

theorem next_attempting_of_ok {u : Unit}
    (h : foreign (t.env.apply decision) a = (.ok u, a')) :
    next t (.attempting decision) a = (.ok (none, some (.applied decision)), a') :=
  Effect.tryCatch_of_ok (Effect.bind_of_ok h)

end Attempting

end Stage

/-! ## Processes -/

/-- An epoch store and a log with a process over them, or without one. -/
inductive AgentProcess (rt : Runtime) (sink : ReadableSink)
  | down (epochs : EpochStore) (log : sink.State)
  | idle (agent : Agent rt sink)
  | busy (agent : Agent rt sink) (turn : Turn rt sink) (stage : Stage)

/-- What can happen next. -/
inductive TurnEvent (rt : Runtime)
  | start (trustedKey : rt.PublicKey) (expectedIssuer siteId : String) (signedFloor : Bytes)
      (floorLinks : Option (List Link)) (readFault : Option Exc) (key : rt.PrivateKey)
      (chainSite : String)
  | deliver (d : Delivery)
  | call (env : Environment) (siteId : String) (now : DateTime)
  | next
  | stop

/-- A site and the turns that have ended there, the earliest first. -/
structure Station (rt : Runtime) (sink : ReadableSink) where
  process : AgentProcess rt sink
  ended : List (Turn rt sink)

namespace Station
variable {rt : Runtime} {sink : ReadableSink}

/-- A site where no process has run. -/
def fresh (epochs : EpochStore) (log : sink.State) : Station rt sink := ⟨.down epochs log, []⟩

/-- The turn under way is the last. -/
def turns (s : Station rt sink) : List (Turn rt sink) :=
  match s.process with
  | .busy _ turn _ => s.ended ++ [turn]
  | _ => s.ended

def log (s : Station rt sink) : sink.State :=
  match s.process with
  | .down _ log => log
  | .idle a => a.log
  | .busy a _ _ => a.log

/-- The sequences of the bundles behind the receipts that are not marked degraded, in the order of
the log. -/
def sequences (s : Station rt sink) : List Value := s.turns.flatMap Turn.sequences

/-- The turn goes on as its last step tells, or ends with the exception. -/
def resume (s : Station rt sink) (t : Turn rt sink) :
    Except Exc (Option Receipt × Option Stage) × Agent rt sink → Station rt sink
  | (.ok (receipt, some stage), a) => { s with process := .busy a (t.write receipt) stage }
  | (.ok (receipt, none), a) => ⟨.idle a, s.ended ++ [t.write receipt]⟩
  | (.error _, a) => ⟨.idle a, s.ended ++ [t]⟩

def step (s : Station rt sink) (event : TurnEvent rt) : Station rt sink :=
  match event, s.process with
  | .start trustedKey expectedIssuer siteId signedFloor floorLinks readFault key chainSite,
      .down epochs log =>
      match BundleStore.init trustedKey expectedIssuer siteId signedFloor floorLinks epochs
          readFault, ReceiptChain.recover sink log key chainSite with
      | .ok store, .ok chain => { s with process := .idle ⟨store, epochs, chain, log⟩ }
      | _, _ => s
  | .deliver d, .idle a => { s with process := .idle (a.deliver d) }
  | .deliver d, .busy a t stage => { s with process := .busy (a.deliver d) t stage }
  | .call env siteId now, .idle a =>
      { s with process := .busy a { agent := a, env := env, siteId := siteId, now := now } .pinned }
  | .next, .busy a t stage => s.resume t (stage.next t a)
  | .stop, .idle a => { s with process := .down a.epochs a.log }
  | .stop, .busy a t _ => ⟨.down a.epochs a.log, s.ended ++ [t]⟩
  | _, _ => s

/-- What an event does to a site that it does anything to. -/
inductive Moves : Station rt sink → TurnEvent rt → Station rt sink → Prop
  | still (s : Station rt sink) (event : TurnEvent rt) : Moves s event s
  | start {epochs : EpochStore} {log : sink.State} {ended : List (Turn rt sink)}
      {trustedKey : rt.PublicKey} {expectedIssuer siteId : String} {signedFloor : Bytes}
      {floorLinks : Option (List Link)} {readFault : Option Exc} {key : rt.PrivateKey}
      {chainSite : String} {store : BundleStore rt} {chain : ReceiptChain rt}
      (hinit : BundleStore.init trustedKey expectedIssuer siteId signedFloor floorLinks epochs
        readFault = .ok store) (hrecover : ReceiptChain.recover sink log key chainSite = .ok chain) :
      Moves ⟨.down epochs log, ended⟩
        (.start trustedKey expectedIssuer siteId signedFloor floorLinks readFault key chainSite)
        ⟨.idle ⟨store, epochs, chain, log⟩, ended⟩
  | deliver (a : Agent rt sink) (ended : List (Turn rt sink)) (d : Delivery) :
      Moves ⟨.idle a, ended⟩ (.deliver d) ⟨.idle (a.deliver d), ended⟩
  | deliverBusy (a : Agent rt sink) (t : Turn rt sink) (stage : Stage) (ended : List (Turn rt sink))
      (d : Delivery) :
      Moves ⟨.busy a t stage, ended⟩ (.deliver d) ⟨.busy (a.deliver d) t stage, ended⟩
  | call (a : Agent rt sink) (ended : List (Turn rt sink)) (env : Environment) (siteId : String)
      (now : DateTime) : Moves ⟨.idle a, ended⟩ (.call env siteId now)
        ⟨.busy a { agent := a, env := env, siteId := siteId, now := now } .pinned, ended⟩
  | next (a : Agent rt sink) (t : Turn rt sink) (stage : Stage) (ended : List (Turn rt sink)) :
      Moves ⟨.busy a t stage, ended⟩ .next
        (resume ⟨.busy a t stage, ended⟩ t (stage.next t a))
  | stop (a : Agent rt sink) (ended : List (Turn rt sink)) :
      Moves ⟨.idle a, ended⟩ .stop ⟨.down a.epochs a.log, ended⟩
  | stopBusy (a : Agent rt sink) (t : Turn rt sink) (stage : Stage) (ended : List (Turn rt sink)) :
      Moves ⟨.busy a t stage, ended⟩ .stop ⟨.down a.epochs a.log, ended ++ [t]⟩

/-- Every step is one of these; what is kept by all of them is kept by every step. -/
theorem moves_step (s : Station rt sink) (event : TurnEvent rt) : Moves s event (s.step event) := by
  obtain ⟨process, ended⟩ := s
  cases process with
  | down epochs log =>
    cases event with
    | start trustedKey expectedIssuer siteId signedFloor floorLinks readFault key chainSite =>
      simp only [step]
      split
      · next store chain hinit hrecover => exact .start hinit hrecover
      · exact .still _ _
    | _ => exact .still _ _
  | idle a =>
    cases event with
    | deliver d => exact .deliver a ended d
    | call env siteId now => exact .call a ended env siteId now
    | stop => exact .stop a ended
    | _ => exact .still _ _
  | busy a t stage =>
    cases event with
    | deliver d => exact .deliverBusy a t stage ended d
    | next => exact .next a t stage ended
    | stop => exact .stopBusy a t stage ended
    | _ => exact .still _ _

/-! ## A turn on its own -/

section Turn
variable {s : Station rt sink} {a a' a'' : Agent rt sink} {t : Turn rt sink} {stage stage' : Stage}
  {ended : List (Turn rt sink)} {receipt : Option Receipt} {e : Exc} {n : Nat}

theorem step_start {epochs : EpochStore} {log : sink.State} (h : s.process = .down epochs log)
    {trustedKey : rt.PublicKey} {expectedIssuer siteId : String} {signedFloor : Bytes}
    {floorLinks : Option (List Link)} {readFault : Option Exc} {key : rt.PrivateKey}
    {chainSite : String} {store : BundleStore rt} {chain : ReceiptChain rt}
    (hinit : BundleStore.init trustedKey expectedIssuer siteId signedFloor floorLinks epochs
      readFault = .ok store) (hrecover : ReceiptChain.recover sink log key chainSite = .ok chain) :
    s.step (.start trustedKey expectedIssuer siteId signedFloor floorLinks readFault key
      chainSite) = { s with process := .idle ⟨store, epochs, chain, log⟩ } := by
  simp only [step, h, hinit, hrecover]

theorem step_deliver (h : s.process = .idle a) (d : Delivery) :
    s.step (.deliver d) = { s with process := .idle (a.deliver d) } := by
  simp only [step, h]

theorem step_next (h : s.process = .busy a t stage) :
    s.step .next = s.resume t (stage.next t a) := by
  simp only [step, h]

theorem step_next_idle (h : s.process = .idle a) : s.step .next = s := by
  simp only [step, h]

theorem run_next_idle (h : s.process = .idle a) (n : Nat) :
    Run.run step s (List.replicate n .next) = s := by
  induction n with
  | zero => rfl
  | succ n ih => rw [List.replicate_succ, Run.run_cons, step_next_idle h, ih]

/-- In so many steps the turn under way ends, and leaves the process with that agent. -/
def Ends (s : Station rt sink) (t : Turn rt sink) (n : Nat) (a : Agent rt sink) : Prop :=
  ∃ receipts, Run.run step s (List.replicate n .next) =
    ⟨.idle a, s.ended ++ [{ t with receipts := t.receipts ++ receipts }]⟩

/-- So it does from what its last step came to. -/
def Leads (ended : List (Turn rt sink)) (t : Turn rt sink)
    (came : Except Exc (Option Receipt × Option Stage) × Agent rt sink) (n : Nat)
    (a : Agent rt sink) : Prop :=
  ∃ receipts, Run.run step (resume ⟨.idle came.2, ended⟩ t came) (List.replicate n .next) =
    ⟨.idle a, ended ++ [{ t with receipts := t.receipts ++ receipts }]⟩

theorem ends_of_leads (h : Leads ended t (stage.next t a) n a') :
    Ends ⟨.busy a t stage, ended⟩ t (n + 1) a' := by
  obtain ⟨receipts, hrun⟩ := h
  refine ⟨receipts, ?_⟩
  rw [List.replicate_succ, Run.run_cons, step_next rfl, ← hrun]
  rcases stage.next t a with ⟨e | ⟨receipt, _ | stage'⟩, a₁⟩
  · rfl
  · rfl
  · rfl

theorem leads_error (e : Exc) (a : Agent rt sink) (n : Nat) : Leads ended t (.error e, a) n a := by
  refine ⟨[], ?_⟩
  rw [resume, run_next_idle rfl, List.append_nil]

theorem leads_last (receipt : Option Receipt) (a : Agent rt sink) (n : Nat) :
    Leads ended t (.ok (receipt, none), a) n a := by
  refine ⟨receipt.toList, ?_⟩
  rw [resume, run_next_idle rfl]
  rfl

theorem leads_next (h : Ends ⟨.busy a (t.write receipt) stage, ended⟩ (t.write receipt) n a') :
    Leads ended t (.ok (receipt, some stage), a) n a' := by
  obtain ⟨receipts, hrun⟩ := h
  refine ⟨receipt.toList ++ receipts, ?_⟩
  rw [resume, hrun, ← List.append_assoc]
  rfl

/-- Where a step of the turn and a call begin alike, it is enough that they go on alike. -/
theorem leads_bind {α β : Type} {m : Effect Exc (Agent rt sink) α}
    {f : α → Effect Exc (Agent rt sink) (Option Receipt × Option Stage)}
    {g : α → Effect Exc (Agent rt sink) β}
    (h : ∀ x a', m a = (.ok x, a') → Leads ended t (f x a') n (g x a').2) :
    Leads ended t ((m >>= f) a) n ((m >>= g) a).2 := by
  rcases hm : m a with ⟨e | x, a'⟩
  · rw [Effect.bind_of_error hm, Effect.bind_of_error hm]
    exact leads_error e a' n
  · rw [Effect.bind_of_ok hm, Effect.bind_of_ok hm]
    exact h x a' hm

/-- The last record of a turn, and what a call does after it that leaves the agent as it is. -/
theorem leads_record {entry : Entry} {g : Receipt → Effect Exc (Agent rt sink) EligibilityDecision}
    (hg : ∀ r a', (g r a').2 = a') (n : Nat) :
    Leads ended t (Stage.recordThen entry none a) n ((recordEntry entry >>= g) a).2 := by
  refine leads_bind ?_
  intro r a' _
  rw [hg r a']
  exact leads_last (some r) a' n

/-- What comes after the application is on record. -/
theorem ends_applied (decision : EligibilityDecision) :
    Ends ⟨.busy a t (.applied decision), ended⟩ t 2 ((do
      let actual ← foreign (t.env.readback decision)
      let complaint ← Effect.lift (postconditionComplaint actual decision.classes)
      let observedStateHash ← Effect.lift (stateHash rt actual)
      let _ ← recordEntry (observed decision t.now observedStateHash complaint)
      if complaint ≠ "" then throw (postconditionViolation complaint)
      else return decision : Effect Exc (Agent rt sink) EligibilityDecision) a).2 := by
  refine ends_of_leads ?_
  unfold Stage.next
  refine leads_bind ?_
  intro actual a₁ _
  refine leads_bind ?_
  intro complaint a₂ _
  refine leads_bind ?_
  intro observedStateHash a₃ _
  refine leads_next (ends_of_leads (leads_record ?_ 0))
  intro r a₄
  split_ifs
  · rfl
  · rfl

/-- What comes after the attempt is on record. -/
theorem ends_enforce (decision : EligibilityDecision) :
    Ends ⟨.busy a t (.attempting decision), ended⟩ t 3 (enforce t.env t.now decision a).2 := by
  refine ends_of_leads ?_
  unfold enforce
  rcases happly : foreign (t.env.apply decision) a with ⟨e | u, a'⟩
  · -- whether the failure is recorded or not, the exception goes on
    rw [Stage.next_attempting_of_error happly, Effect.bind_of_eq (Effect.tryCatch_of_error happly),
      Effect.bind_assoc]
    refine leads_next (ends_of_leads ?_)
    unfold recordRefusal
    rw [Effect.bind_assoc]
    exact leads_bind fun shown a₁ _ => leads_record (fun _ _ => rfl) 1
  · rw [Stage.next_attempting_of_ok happly, Effect.bind_of_ok (Effect.tryCatch_of_ok happly)]
    exact leads_next (ends_applied decision)

/-- The second record and what comes after it. -/
theorem ends_authorised (decision : EligibilityDecision) :
    Ends ⟨.busy a t (.authorised decision), ended⟩ t 4 ((do
      let _ ← recordEntry { decision := decision, now := t.now, kind := kindExecution }
      enforce t.env t.now decision : Effect Exc (Agent rt sink) EligibilityDecision) a).2 := by
  refine ends_of_leads ?_
  unfold Stage.next
  exact leads_bind fun r a' _ => leads_next (ends_enforce decision)

/-- Both records and what comes after them. -/
theorem ends_decided (decision : EligibilityDecision) :
    Ends ⟨.busy a t (.decided decision), ended⟩ t 5 ((do
      let _ ← recordEntry { decision := decision, now := t.now }
      let _ ← recordEntry { decision := decision, now := t.now, kind := kindExecution }
      enforce t.env t.now decision : Effect Exc (Agent rt sink) EligibilityDecision) a).2 := by
  refine ends_of_leads ?_
  unfold Stage.next
  exact leads_bind fun r a' _ => leads_next (ends_authorised decision)

/-- A turn from its start. -/
theorem ends_runOnce (a : Agent rt sink) (ended : List (Turn rt sink)) (env : Environment)
    (siteId : String) (now : DateTime) :
    let t : Turn rt sink := { agent := a, env := env, siteId := siteId, now := now }
    Ends ⟨.busy a t .pinned, ended⟩ t 6 (runOnce env siteId now a).2 := by
  intro t
  have hstart : runOnce env siteId now a = (do
      let observations ← foreign env.observe
      let decision ← Effect.lift
        (decideUnder rt env t.pinned.1 ⟨observations⟩ now siteId t.pinned.2)
      let _ ← recordEntry { decision := decision, now := now }
      let _ ← recordEntry { decision := decision, now := now, kind := kindExecution }
      enforce env now decision : Effect Exc (Agent rt sink) EligibilityDecision) a := by
    unfold runOnce authorise
    rw [Effect.bind_assoc, Effect.read_bind]
    simp only [Effect.bind_assoc]
    rfl
  rw [hstart]
  refine ends_of_leads ?_
  unfold Stage.next
  refine leads_bind ?_
  intro observations a₁ _
  refine leads_bind ?_
  intro decision a₂ _
  exact leads_next (ends_decided decision)

theorem step_call (h : s.process = .idle a) (env : Environment) (siteId : String)
    (now : DateTime) : s.step (.call env siteId now) = { s with
      process := .busy a { agent := a, env := env, siteId := siteId, now := now } .pinned } := by
  simp only [step, h]

/-- A turn that nothing lands in between is a call of `runOnce`. -/
theorem run_turn (h : s.process = .idle a) (env : Environment) (siteId : String) (now : DateTime) :
    ∃ receipts, Run.run step s (.call env siteId now :: List.replicate 6 .next) =
      ⟨.idle (runOnce env siteId now a).2, s.ended ++ [⟨a, env, siteId, now, receipts⟩]⟩ := by
  obtain ⟨receipts, hrun⟩ := ends_runOnce a s.ended env siteId now
  exact ⟨receipts, by rw [Run.run_cons, step_call h, hrun]; rfl⟩

/-- One that has evidence, a decision and a log that can be written writes the decision first. -/
theorem run_turn_decided (h : s.process = .idle a) {env : Environment} {siteId : String}
    {now : DateTime} {observations : List Observation} {decision : EligibilityDecision}
    {r : Receipt} (hobserve : foreign env.observe a = (.ok observations, a'))
    (hdecide : decideUnder rt env (a.store.current now).1 ⟨observations⟩ now siteId
      (a.store.current now).2 = .ok decision)
    (hrecord : recordEntry { decision := decision, now := now } a' = (.ok r, a'')) :
    ∃ receipts, Run.run step s (.call env siteId now :: List.replicate 6 .next) =
      ⟨.idle (runOnce env siteId now a).2, s.ended ++ [⟨a, env, siteId, now, r :: receipts⟩]⟩ := by
  let t : Turn rt sink := { agent := a, env := env, siteId := siteId, now := now }
  obtain ⟨receipts, hrun⟩ := run_turn h env siteId now
  have hpinned : Stage.next t .pinned a = (.ok (none, some (.decided decision)), a') :=
    (Effect.bind_of_ok hobserve).trans (Effect.lift_bind_of_ok hdecide _ _)
  have hdecided : Stage.next (t.write none) (.decided decision) a' =
      (.ok (some r, some (.authorised decision)), a'') := Effect.bind_of_ok hrecord
  -- the same steps, up to the first record and from there on
  obtain ⟨rest, hends⟩ : Ends ⟨.busy a'' ((t.write none).write (some r)) (.authorised decision),
      s.ended⟩ ((t.write none).write (some r)) 4 _ := ends_authorised decision
  have hsteps : Run.run step s (.call env siteId now :: List.replicate 6 .next) =
      Run.run step ⟨.busy a'' ((t.write none).write (some r)) (.authorised decision), s.ended⟩
        (List.replicate 4 .next) := by
    rw [Run.run_cons, step_call h, List.replicate_succ, Run.run_cons, step_next rfl, hpinned,
      resume, List.replicate_succ, Run.run_cons, step_next rfl, hdecided, resume]
  have hended := congrArg Station.ended (hrun.symm.trans (hsteps.trans hends))
  obtain rfl : receipts = r :: rest :=
    congrArg Turn.receipts (List.singleton_injective (List.append_cancel_left hended))
  exact ⟨rest, hrun⟩

/-- One that gets there is about to call the dataplane. -/
theorem run_authorise (h : s.process = .idle a) {env : Environment} {siteId : String}
    {now : DateTime} {decision : EligibilityDecision}
    (hreached : authorise env siteId now a = (.ok decision, a')) :
    ∃ t, Run.run step s (.call env siteId now :: List.replicate 3 .next) =
      ⟨.busy a' t (.attempting decision), s.ended⟩ := by
  let t : Turn rt sink := { agent := a, env := env, siteId := siteId, now := now }
  unfold authorise at hreached
  rw [Effect.read_bind] at hreached
  obtain ⟨observations, a₁, hobserve, hreached⟩ := Effect.bind_eq_ok_iff.mp hreached
  obtain ⟨decision', a₂, hdecide, hreached⟩ := Effect.bind_eq_ok_iff.mp hreached
  obtain ⟨r, a₃, hfirst, hreached⟩ := Effect.bind_eq_ok_iff.mp hreached
  obtain ⟨r', a₄, hsecond, hreached⟩ := Effect.bind_eq_ok_iff.mp hreached
  cases hreached
  have hpinned : Stage.next t .pinned a = (.ok (none, some (.decided decision)), a₂) :=
    (Effect.bind_of_ok hobserve).trans (Effect.bind_of_ok hdecide)
  have hdecided : Stage.next (t.write none) (.decided decision) a₂ =
      (.ok (some r, some (.authorised decision)), a₃) := Effect.bind_of_ok hfirst
  have hauthorised : Stage.next ((t.write none).write (some r)) (.authorised decision) a₃ =
      (.ok (some r', some (.attempting decision)), a') := Effect.bind_of_ok hsecond
  refine ⟨((t.write none).write (some r)).write (some r'), ?_⟩
  rw [Run.run_cons, step_call h, List.replicate_succ, Run.run_cons, step_next rfl, hpinned, resume,
    List.replicate_succ, Run.run_cons, step_next rfl, hdecided, resume, List.replicate_succ,
    Run.run_cons, step_next rfl, hauthorised]
  rfl

end Turn

end Station

/-! ## What is on record -/

section Record
variable {rt : Runtime} (laws : rt.Lawful) {sink : ReadableSink}
  {holds : sink.State → List Bytes → Prop} (lawful : sink.Lawful holds) {t : Turn rt sink}
  {stage : Stage} {a a' : Agent rt sink} {log : List Bytes}

theorem Turn.Decides.degraded {decision : EligibilityDecision} (h : t.Decides decision) :
    decision.degraded = t.pinned.2 := by
  obtain ⟨observations, -, hdecide⟩ := h
  exact degraded_of_decideUnder hdecide

theorem Turn.Decides.unique {d d' : EligibilityDecision} (h : t.Decides d) (h' : t.Decides d') :
    d = d' := by
  obtain ⟨observations, hobserve, hdecide⟩ := h
  obtain ⟨observations', hobserve', hdecide'⟩ := h'
  obtain rfl : observations = observations' := Except.ok.inj (hobserve.symm.trans hobserve')
  exact Except.ok.inj (hdecide.symm.trans hdecide')

/-- What governs is the floor exactly when the site is running degraded. -/
theorem current_eq_floor (s : BundleStore rt) (now : DateTime) :
    (s.current now).2 = true ↔ s.current now = (s.floor, true) := by
  constructor
  · intro h
    have hcurrent : s.current now = ((s.current now).1, true) := Prod.ext rfl h
    obtain ⟨hfloor, -⟩ := BundleStore.current_degraded.mp hcurrent
    rw [hcurrent, hfloor]
  · intro h
    rw [h]

theorem onePolicy_of_decides (h : ∀ r ∈ t.receipts, t.Decides r.decision) : t.OnePolicy where
  decided := h
  same r hr r' hr' := (h r hr).unique (h r' hr')
  degraded r hr := by
    rw [(h r hr).degraded]
    exact current_eq_floor t.agent.store t.now

/-- A stage of a turn, if it has decided, is of what it decides. -/
def Turn.Under (t : Turn rt sink) (stage : Stage) : Prop :=
  ∀ decision, stage.decision? = some decision → t.Decides decision

/-- What a step of a turn may come to where the log is that. -/
def Turn.Goes (holds : sink.State → List Bytes → Prop) (t : Turn rt sink) (log : List Bytes) :
    Except Exc (Option Receipt × Option Stage) × Agent rt sink → Prop
  | (.ok (receipt, stage), a) =>
      Ready holds t.agent.chain
        (log ++ receipt.toList.map (receiptBytes t.agent.chain t.now)) a ∧
      (∀ r, receipt = some r → t.Decides r.decision) ∧
      ∀ stage', stage = some stage' → t.Under stage'
  | (.error _, a) => Ready holds t.agent.chain log a

include laws lawful in
theorem goes_recordThen (h : Ready holds t.agent.chain log a) {entry : Entry}
    (hentry : t.Decides entry.decision) (hnow : entry.now = t.now) {next : Option Stage}
    (hnext : ∀ stage, next = some stage → t.Under stage) :
    t.Goes holds log (Stage.recordThen entry next a) := by
  rcases hrecord : recordEntry entry a with ⟨e | r, a'⟩
  · have hraised : Stage.recordThen entry next a = (.error e, a') := Effect.bind_of_error hrecord
    rw [hraised]
    exact h.unwritten laws lawful hrecord
  · have hreturned : Stage.recordThen entry next a = (.ok (some r, next), a') :=
      Effect.bind_of_ok hrecord
    obtain ⟨hready, seq, -, -, rfl⟩ := h.written laws lawful hrecord
    rw [hreturned]
    refine ⟨?_, ?_, hnext⟩
    · rwa [hnow] at hready
    · rintro _ ⟨⟩
      exact hentry

theorem Turn.Decides.under {decision : EligibilityDecision} (h : t.Decides decision)
    (hstage : stage.decision? = some decision) : t.Under stage := by
  intro decision' hdecision'
  rwa [← Option.some.inj (hstage.symm.trans hdecision')]

theorem goes_return (h : Ready holds t.agent.chain log a) (hstage : t.Under stage) :
    t.Goes holds log (.ok (none, some stage), a) := by
  refine ⟨by simpa using h, by simp, ?_⟩
  intro stage' hstage'
  rwa [← Option.some.inj hstage']

section Goes
variable {α : Type} {f : α → Effect Exc (Agent rt sink) (Option Receipt × Option Stage)}

theorem goes_foreign (h : Ready holds t.agent.chain log a) {call : Foreign α}
    (hnext : ∀ x a', call.result = .ok x → Ready holds t.agent.chain log a' →
      t.Goes holds log (f x a')) : t.Goes holds log ((foreign call >>= f) a) := by
  have ha := h.foreign call
  rcases hcall : foreign call a with ⟨e | x, a'⟩
  · rw [hcall] at ha
    rw [Effect.bind_of_error hcall]
    exact ha
  · rw [hcall] at ha
    rw [Effect.bind_of_ok hcall]
    exact hnext x a' (congrArg Prod.fst hcall) ha

theorem goes_lift (h : Ready holds t.agent.chain log a) {result : Except Exc α}
    (hnext : ∀ x, result = .ok x → t.Goes holds log (f x a)) :
    t.Goes holds log ((Effect.lift result >>= f) a) := by
  cases result with
  | error e =>
    rw [Effect.lift_bind_of_error rfl]
    exact h
  | ok x =>
    rw [Effect.lift_bind_of_ok rfl]
    exact hnext x rfl

end Goes

theorem goes_attempting (h : Ready holds t.agent.chain log a) {decision : EligibilityDecision}
    (hdecides : t.Decides decision) :
    t.Goes holds log (Stage.next t (.attempting decision) a) := by
  have ha := h.foreign (t.env.apply decision)
  rcases happly : foreign (t.env.apply decision) a with ⟨e | u, a'⟩
  · rw [happly] at ha
    rw [Stage.next_attempting_of_error happly]
    exact goes_return ha (hdecides.under rfl)
  · rw [happly] at ha
    rw [Stage.next_attempting_of_ok happly]
    exact goes_return ha (hdecides.under rfl)

include laws lawful in
/-- A record that another stage of the same decision follows. -/
theorem goes_record (h : Ready holds t.agent.chain log a) {entry : Entry}
    (hentry : t.Decides entry.decision) (hnow : entry.now = t.now) {next : Stage}
    (hnext : next.decision? = some entry.decision) :
    t.Goes holds log (Stage.recordThen entry (some next) a) := by
  refine goes_recordThen laws lawful h hentry hnow ?_
  rintro stage ⟨⟩
  exact hentry.under hnext

include laws lawful in
/-- The last record of a turn. -/
theorem goes_lastRecord (h : Ready holds t.agent.chain log a) {entry : Entry}
    (hentry : t.Decides entry.decision) (hnow : entry.now = t.now) :
    t.Goes holds log (Stage.recordThen entry none a) := by
  refine goes_recordThen laws lawful h hentry hnow ?_
  intro stage hstage
  cases hstage

include laws lawful in
/-- Every step of a turn keeps to what the turn decides. -/
theorem goes_next (h : Ready holds t.agent.chain log a) (hunder : t.Under stage) :
    t.Goes holds log (stage.next t a) := by
  cases stage with
  | pinned =>
    unfold Stage.next
    refine goes_foreign h ?_
    intro observations a' hobserve ha
    refine goes_lift ha ?_
    intro decision hdecide
    have hdecides : t.Decides decision := ⟨observations, hobserve, hdecide⟩
    exact goes_return ha (hdecides.under rfl)
  | decided decision => exact goes_record laws lawful h (hunder decision rfl) rfl rfl
  | authorised decision => exact goes_record laws lawful h (hunder decision rfl) rfl rfl
  | attempting decision => exact goes_attempting h (hunder decision rfl)
  | failed decision e =>
    unfold Stage.next
    refine goes_lift h ?_
    intro shown _
    exact goes_lastRecord laws lawful h (hunder decision rfl) rfl
  | applied decision =>
    unfold Stage.next
    refine goes_foreign h ?_
    intro actual a' _ ha
    refine goes_lift ha ?_
    intro complaint _
    refine goes_lift ha ?_
    intro observedStateHash _
    exact goes_return ha ((hunder decision rfl).under rfl)
  | audited decision observedStateHash complaint =>
    exact goes_lastRecord laws lawful h (hunder decision rfl) rfl

namespace Station

/-- The log goes on from what it held with the receipts of the turns, and every receipt of a turn
is of what the turn decides. -/
structure WellRecorded (holds : sink.State → List Bytes → Prop) (before : List Bytes)
    (s : Station rt sink) : Prop where
  held : holds s.log (before ++ s.turns.flatMap Turn.lines)
  decides : ∀ t ∈ s.turns, ∀ r ∈ t.receipts, t.Decides r.decision
  busy : ∀ a t stage, s.process = .busy a t stage →
    SameSite t.agent.chain a.chain ∧ t.Under stage

variable {before : List Bytes} {ended : List (Turn rt sink)} {s : Station rt sink}

theorem wellRecorded_fresh {log : sink.State} (h : holds log before) (epochs : EpochStore) :
    (fresh epochs log : Station rt sink).WellRecorded holds before where
  held := by
    show holds log (before ++ [])
    rwa [List.append_nil]
  decides t ht := by cases ht
  busy a t stage h := by cases h

/-- The same turns are as well recorded where the log holds the same. -/
theorem WellRecorded.transfer {s' : Station rt sink} (h : s.WellRecorded holds before)
    (hturns : s'.turns = s.turns) (hheld : holds s'.log (before ++ s.turns.flatMap Turn.lines))
    (hbusy : ∀ a t stage, s'.process = .busy a t stage →
      SameSite t.agent.chain a.chain ∧ t.Under stage) : s'.WellRecorded holds before where
  held := by
    rw [hturns]
    exact hheld
  decides := by
    rw [hturns]
    exact h.decides
  busy := hbusy

theorem lines_write (t : Turn rt sink) (receipt : Option Receipt) : (t.write receipt).lines =
    t.lines ++ receipt.toList.map (receiptBytes t.agent.chain t.now) := by
  simp [Turn.write, Turn.lines]

/-- The last turn has written one more receipt, or none. -/
theorem WellRecorded.extend {s' : Station rt sink} (h : s.WellRecorded holds before)
    (hturns : s.turns = ended ++ [t]) {receipt : Option Receipt}
    (hturns' : s'.turns = ended ++ [t.write receipt])
    (hdecides : ∀ r, receipt = some r → t.Decides r.decision)
    (hheld : holds s'.log (before ++ s.turns.flatMap Turn.lines ++
      receipt.toList.map (receiptBytes t.agent.chain t.now)))
    (hbusy : ∀ a t stage, s'.process = .busy a t stage →
      SameSite t.agent.chain a.chain ∧ t.Under stage) : s'.WellRecorded holds before where
  held := by
    have hlines : s'.turns.flatMap Turn.lines = s.turns.flatMap Turn.lines ++
        receipt.toList.map (receiptBytes t.agent.chain t.now) := by
      rw [hturns, hturns', List.flatMap_append, List.flatMap_append, List.flatMap_singleton,
        List.flatMap_singleton, lines_write, List.append_assoc]
    rwa [hlines, ← List.append_assoc]
  decides t' ht' r hr := by
    have hdone := h.decides
    rw [hturns] at hdone
    rw [hturns'] at ht'
    rcases List.mem_append.mp ht' with ht' | ht'
    · exact hdone t' (List.mem_append_left _ ht') r hr
    · rw [List.mem_singleton.mp ht'] at hr ⊢
      rcases List.mem_append.mp hr with hr | hr
      · exact hdone t (List.mem_append_right _ (List.mem_singleton_self t)) r hr
      · exact hdecides r (Option.mem_toList.mp hr)
  busy := hbusy

include laws lawful in
theorem wellRecorded_next
    (h : (⟨.busy a t stage, ended⟩ : Station rt sink).WellRecorded holds before) :
    (step ⟨.busy a t stage, ended⟩ .next).WellRecorded holds before := by
  obtain ⟨hsite, hunder⟩ := h.busy a t stage rfl
  have hgoes := goes_next laws lawful (⟨h.held, hsite⟩ : Ready holds t.agent.chain _ a) hunder
  rw [step_next rfl]
  rcases hnext : stage.next t a with ⟨e | ⟨receipt, _ | stage'⟩, a'⟩
  · rw [hnext] at hgoes
    exact h.transfer rfl hgoes.held fun _ _ _ hp => by cases hp
  · rw [hnext] at hgoes
    obtain ⟨hready, hdecides, -⟩ := hgoes
    exact h.extend rfl rfl hdecides hready.held fun _ _ _ hp => by cases hp
  · rw [hnext] at hgoes
    obtain ⟨hready, hdecides, hunder'⟩ := hgoes
    refine h.extend rfl rfl hdecides hready.held ?_
    intro _ _ _ hp
    cases hp
    exact ⟨hready.site, hunder' stage' rfl⟩

include laws lawful in
/-- Every step leaves the log and the turns in order. -/
theorem wellRecorded_step (h : s.WellRecorded holds before) (event : TurnEvent rt) :
    (s.step event).WellRecorded holds before := by
  have hmoves := s.moves_step event
  generalize s.step event = s' at hmoves ⊢
  cases hmoves with
  | still => exact h
  | start hinit hrecover => exact h.transfer rfl h.held fun _ _ _ hp => by cases hp
  | deliver a ended d => exact h.transfer rfl h.held fun _ _ _ hp => by cases hp
  | deliverBusy a t stage ended d =>
    refine h.transfer rfl h.held ?_
    intro _ _ _ hp
    cases hp
    exact h.busy a t stage rfl
  | call a ended env siteId now =>
    -- a turn that has only pinned has no part of the log
    refine ⟨?_, fun t ht r hr => ?_, fun _ _ _ hp => ?_⟩
    · show holds a.log (before ++ (ended ++ [_]).flatMap Turn.lines)
      rw [List.flatMap_append, List.flatMap_singleton]
      show holds a.log (before ++ (ended.flatMap Turn.lines ++ []))
      rw [List.append_nil]
      exact h.held
    · rcases List.mem_append.mp ht with ht | ht
      · exact h.decides t ht r hr
      · rw [List.mem_singleton.mp ht] at hr
        cases hr
    · cases hp
      exact ⟨⟨rfl, rfl⟩, fun _ hd => by cases hd⟩
  | next a t stage ended => exact wellRecorded_next laws lawful h
  | stop a ended => exact h.transfer rfl h.held fun _ _ _ hp => by cases hp
  | stopBusy a t stage ended => exact h.transfer rfl h.held fun _ _ _ hp => by cases hp

include laws lawful in
theorem wellRecorded_run (h : s.WellRecorded holds before) (events : List (TurnEvent rt)) :
    (Run.run step s events).WellRecorded holds before :=
  Run.run_invariant (I := fun s : Station rt sink => s.WellRecorded holds before)
    (fun _ event hs (_ : True) => wellRecorded_step laws lawful hs event) h fun _ _ => trivial

end Station

end Record

end Pilotfish
