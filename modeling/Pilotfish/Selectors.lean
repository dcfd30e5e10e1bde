import Pilotfish.BigEndian
import Pilotfish.Cycle
import Pilotfish.FloorPolicy
import Pilotfish.Run
import Mathlib.Order.WithBot

/-!
# The governed selector

The simulator's governed path runs the agent on the evidence of a step, and chooses by latency
inside what was decided. A class that is permitted nothing is given what the first class is.

Results:
1. `bestByRtt_mem`, `bestByRtt_eq_none`: what is chosen among candidates.
2. `choose_inside_iff`: when the choice for a class is one it is permitted.
3. `declared_run`: the selector's store holds bundles of the declared types at any time.
4. `governed_inside_iff`: the choices are inside what was decided exactly when a class that is
   refused everything finds nothing up among what the first class is permitted.
-/

namespace Pilotfish
open Python

/-! ## Choosing among candidates -/

def observedUp (evidence : EvidenceSnapshot) (linkId : String) : Bool :=
  match evidence.latest linkId "up" with
  | none => false
  | some observation => 1 ≤ observation.value.toRat

/-- The latest latency; infinite without a measurement. -/
def observedRtt (evidence : EvidenceSnapshot) (linkId : String) : WithTop ℚ :=
  match evidence.latest linkId "rtt_ms" with
  | none => ⊤
  | some observation => observation.value.toRat

def bestByRtt (evidence : EvidenceSnapshot) (candidates : List String) : Option String :=
  (candidates.filter (observedUp evidence)).argmin fun linkId =>
    (toLex (observedRtt evidence linkId, linkId) : WithTop ℚ ×ₗ String)

/-- What is chosen is a candidate that is observed up. -/
theorem bestByRtt_mem {evidence : EvidenceSnapshot} {candidates : List String} {linkId : String}
    (h : bestByRtt evidence candidates = some linkId) :
    linkId ∈ candidates ∧ observedUp evidence linkId = true :=
  List.mem_filter.mp (List.argmin_mem h)

/-- Nothing is chosen when no candidate is. -/
theorem bestByRtt_eq_none {evidence : EvidenceSnapshot} {candidates : List String} :
    bestByRtt evidence candidates = none ↔
    ∀ linkId ∈ candidates, observedUp evidence linkId = false := by
  rw [bestByRtt, List.argmin_eq_none, List.filter_eq_nil_iff]
  simp only [Bool.not_eq_true]

/-- What a selector is shown in a step. -/
structure SelectorContext where
  now : DateTime
  evidence : EvidenceSnapshot
  links : List (String × Link)
  classes : List (String × TrafficClass)
  authorityReachable : Bool

/-- The link for a class. A class that is permitted nothing is mapped on to the first class. -/
def choose (evidence : EvidenceSnapshot) (decision : EligibilityDecision) (classId : String) :
    Option String :=
  let permitted := decision.permittedFor classId
  match permitted, decision.classes with
  -- the fallback looks at the decision's first class, whatever the class asked for may use
  | [], first :: _ => bestByRtt evidence first.permitted
  | _, _ => bestByRtt evidence permitted

/-- The choice for a class is inside what it is permitted exactly when it is permitted something,
or the first class has nothing that is up to offer. -/
theorem choose_inside_iff {evidence : EvidenceSnapshot} {decision : EligibilityDecision}
    {classId : String} :
    (∀ linkId, choose evidence decision classId = some linkId →
      linkId ∈ decision.permittedFor classId) ↔
    ∀ first, decision.classes.head? = some first → decision.permittedFor classId = [] →
      ∀ linkId ∈ first.permitted, observedUp evidence linkId = false := by
  rw [choose]
  cases hpermitted : decision.permittedFor classId with
  | cons p ps =>
    refine iff_of_true (fun linkId hchoice => ?_) fun first _ h => by cases h
    exact (bestByRtt_mem hchoice).1
  | nil =>
    cases decision.classes with
    | nil => simp [bestByRtt]
    | cons first classes =>
      simp only [List.not_mem_nil, imp_false, List.head?_cons, Option.some.injEq, forall_eq',
        true_imp_iff, ← bestByRtt_eq_none, Option.eq_none_iff_forall_ne_some, ne_eq]

/-! ## The selector -/

/-- `n.to_bytes(16, "big")`. -/
def toBytes16 (n : Nat) : Except Exc Bytes :=
  if n < 256 ^ 16 then .ok (BigEndian.bytes 16 n)
  else .error ⟨.OverflowError, "int too big to convert"⟩

/-- The selector with its agent. The sink of the receipts and the mark are in memory, and the
dataplane reports what it was told. -/
structure Governed (rt : Runtime) where
  authorityKey : rt.PrivateKey
  bundle : PolicyBundle
  siteId : String
  validityS : ℚ
  agent : Agent rt memoryReceiptSink
  epoch : Nat
  lastDegraded : Bool

namespace Governed
variable {rt : Runtime}

def setAgent (agent : Agent rt memoryReceiptSink) (g : Governed rt) : Governed rt :=
  { g with agent := agent }

/-- A selector that was built or reset. -/
def reset (authorityKey siteKey : rt.PrivateKey) (bundle : PolicyBundle)
    (siteId : String := "sim-site") : Except Exc (Governed rt) := do
  let signedFloor ← signFloor ⟨authorityKey, "authority-1"⟩ siteId bundle.links bundle.trafficClasses
    bundle.issuedAt
  let epochs : EpochStore := .memory (.int (-1))
  let store ← BundleStore.init
    (rt.publicKey authorityKey) "authority-1" siteId signedFloor none epochs
    none
  return {
    authorityKey := authorityKey
    bundle := bundle
    siteId := siteId
    validityS := bundle.notAfter.totalSeconds bundle.issuedAt
    agent := ⟨store, epochs, .new siteId siteKey, ([] : List Bytes)⟩
    epoch := 0
    lastDegraded := true }

/-- The bundle under the current sequence, valid from a clock on, in an envelope whose nonce is
made of the sequence. -/
def reissue (g : Governed rt) (now : DateTime) : Except Exc Bytes := do
  let notAfter ← now.add (DateTime.floatUs g.validityS)
  let fresh := { g.bundle with sequence := (g.epoch : Int), issuedAt := now, notAfter := notAfter }
  let nonce ← toBytes16 g.epoch
  let envelope ← sign rt msgPolicyBundle "authority-1" now nonce
    (encodeBundle rt fresh) g.authorityKey
  return encodeEnvelope rt envelope

def publish (now : DateTime) : Effect Exc (Governed rt) Bytes := do
  Effect.update fun g => { g with epoch := g.epoch + 1 }
  let g ← Effect.read id
  Effect.lift (g.reissue now)

/-- The site is delivered what the authority reissues while it can be reached. -/
def contact (ctx : SelectorContext) : Effect Exc (Governed rt) Unit := do
  if ctx.authorityReachable then
    let envelopeBytes ← publish ctx.now
    let _ ← Effect.zoom agent setAgent (Agent.accept ⟨envelopeBytes, ctx.now, {}⟩)
    return ()
  else return ()

/-- The evidence of a step, and a dataplane that reports what it was told. What is decided under
a bundle of undeclared types is left open; the selector's store never holds one. -/
def environment (undeclared : Undeclared) (ctx : SelectorContext) : Environment where
  observe := ⟨.ok ctx.evidence.observations, []⟩
  apply := fun _ => ⟨.ok (), []⟩
  readback := fun decision => ⟨.ok (NoopDataplane.readback decision.classes), []⟩
  undeclared := undeclared

variable (undeclared : Undeclared) (ctx : SelectorContext)

/-- One turn of the agent. -/
def turn : Effect Exc (Governed rt) EligibilityDecision := fun g =>
  Effect.zoom agent setAgent (runOnce (environment undeclared ctx) g.siteId ctx.now) g

/-- The decision of a step. -/
def decision : Effect Exc (Governed rt) EligibilityDecision := do
  contact ctx
  turn undeclared ctx

def call : Effect Exc (Governed rt) (List (String × Option String)) := do
  let decision ← decision undeclared ctx
  Effect.update fun g => { g with lastDegraded := decision.degraded }
  return ctx.classes.map fun c => (c.1, choose ctx.evidence decision c.1)

/-- What a step leaves, whether it returned or raised. -/
def step (g : Governed rt) (ctx : SelectorContext) : Governed rt := (call undeclared ctx g).2

end Governed

/-! ## What its store holds -/

/-- The floor and the bundle of a store are of the declared types. -/
structure DeclaredStore {rt : Runtime} (s : BundleStore rt) : Prop where
  floor : ∃ b : PolicyBundle, s.floor = b.toWire
  bundle : ∀ w, s.bundle = some w → ∃ b : PolicyBundle, w = b.toWire

/-- What governs is then such a bundle. -/
theorem DeclaredStore.current {rt : Runtime} {s : BundleStore rt} (h : DeclaredStore s)
    (now : DateTime) :
    ∃ (b : PolicyBundle) (degraded : Bool), s.current now = (b.toWire, degraded) := by
  obtain ⟨f, hf⟩ := h.floor
  rw [BundleStore.current, hf]
  cases hbundle : s.bundle with
  | none => exact ⟨f, true, rfl⟩
  | some w =>
    obtain ⟨b, rfl⟩ := h.bundle w hbundle
    dsimp only
    split_ifs
    · exact ⟨f, true, rfl⟩
    · exact ⟨b, false, rfl⟩

section Declared
variable {rt : Runtime} (laws : rt.Lawful)
include laws

namespace Governed

theorem declared_reset {authorityKey siteKey : rt.PrivateKey} {bundle : PolicyBundle}
    {siteId : String} {g : Governed rt} (h : reset authorityKey siteKey bundle siteId = .ok g) :
    DeclaredStore g.agent.store := by
  obtain ⟨signedFloor, hsign, h⟩ := bind_eq_ok_iff.mp h
  obtain ⟨store, hinit, h⟩ := bind_eq_ok_iff.mp h
  cases h
  obtain ⟨floor, sequence, hfloor, -, -, rfl⟩ := BundleStore.init_ok.mp hinit
  obtain ⟨-, c, -, -, hw⟩ := installed_signFloor laws hsign hfloor
  exact ⟨⟨c, hw⟩, fun w hw => by cases hw⟩

omit laws in
theorem reissue_ok {g : Governed rt} {now : DateTime} {envelopeBytes : Bytes}
    (h : g.reissue now = .ok envelopeBytes) : ∃ fresh nonce, nonce.length = nonceBytes ∧
      BundleSigner.publish ⟨g.authorityKey, "authority-1"⟩ fresh now nonce = .ok envelopeBytes := by
  obtain ⟨notAfter, -, h⟩ := bind_eq_ok_iff.mp h
  obtain ⟨nonce, hnonce, h⟩ := bind_eq_ok_iff.mp h
  have hlength : nonce.length = nonceBytes := by
    unfold toBytes16 at hnonce
    split_ifs at hnonce
    cases hnonce
    exact BigEndian.length_bytes 16 _
  exact ⟨_, nonce, hlength, h⟩

/-- What the authority reissues is accepted as a bundle of the declared types, or refused. -/
theorem declared_accept {g : Governed rt} {now : DateTime} {envelopeBytes : Bytes}
    (hreissue : g.reissue now = .ok envelopeBytes) {a : Agent rt memoryReceiptSink}
    (h : DeclaredStore a.store) (d : Delivery) (hd : d.envelopeBytes = envelopeBytes) :
    DeclaredStore (a.deliver d).store := by
  obtain ⟨fresh, nonce, hlength, hpublish⟩ := reissue_ok hreissue
  show DeclaredStore (a.store.accept a.epochs d.faults d.envelopeBytes d.now).2.1
  cases hresult : (a.store.accept a.epochs d.faults d.envelopeBytes d.now).1 with
  | error e => rwa [BundleStore.accept_error hresult]
  | ok w =>
    obtain ⟨envelope, hadmitted, -, -, hstore⟩ := BundleStore.accept_ok hresult
    rw [hstore]
    refine ⟨h.floor, ?_⟩
    intro w' hw'
    obtain rfl : w = w' := Option.some.inj hw'
    obtain ⟨c, -, rfl⟩ := (decodeBundle_publish laws hlength hpublish (hd ▸ hadmitted.decoded)).mp
      hadmitted.payload
    exact ⟨c, rfl⟩

/-- A store of the declared types stays one. -/
def KeepsDeclared (g g' : Governed rt) : Prop :=
  DeclaredStore g.agent.store → DeclaredStore g'.agent.store

omit laws in
theorem KeepsDeclared.trans {a b c : Governed rt} (hab : KeepsDeclared a b)
    (hbc : KeepsDeclared b c) : KeepsDeclared a c := fun h => hbc (hab h)

theorem declared_contact (ctx : SelectorContext) :
    Effect.Within KeepsDeclared (contact ctx : Effect Exc (Governed rt) Unit) := by
  intro g h
  unfold contact
  split_ifs
  · let g' : Governed rt := { g with epoch := g.epoch + 1 }
    cases hreissue : g'.reissue ctx.now with
    | error e =>
      have hpublish : publish ctx.now g = (.error e, g') := Prod.ext hreissue rfl
      rw [Effect.bind_of_error hpublish]
      exact h
    | ok envelopeBytes =>
      have hpublish : publish ctx.now g = (.ok envelopeBytes, g') := Prod.ext hreissue rfl
      have haccept := declared_accept laws hreissue h ⟨envelopeBytes, ctx.now, {}⟩ rfl
      rw [Effect.bind_of_ok hpublish, Effect.snd_bind_pure]
      exact haccept
  · exact h

variable (undeclared : Undeclared) (ctx : SelectorContext)

omit laws in
theorem declared_turn :
    Effect.Within KeepsDeclared (turn undeclared ctx : Effect Exc (Governed rt) _) := by
  intro g h
  have hsame :
    SameStore g.agent (runOnce (environment undeclared ctx) g.siteId ctx.now g.agent).2 :=
    runOnce_sameStore ⟨rfl, fun _ => rfl, fun _ => rfl⟩ g.agent
  show DeclaredStore (runOnce (environment undeclared ctx) g.siteId ctx.now g.agent).2.store
  rwa [hsame]

theorem declared_step (g : Governed rt) : KeepsDeclared g (step undeclared g ctx) := by
  have hcall : Effect.Within KeepsDeclared (call undeclared ctx : Effect Exc (Governed rt) _) := by
    unfold call decision
    exact .bind .trans (.bind .trans (declared_contact laws ctx) fun _ => declared_turn undeclared ctx)
      fun _ => .bind .trans (fun _ h => h) fun _ _ h => h
  exact hcall g

/-- In every step of every run. -/
theorem declared_run {authorityKey siteKey : rt.PrivateKey} {bundle : PolicyBundle}
    {siteId : String}
    {start : Governed rt} (hstart : reset authorityKey siteKey bundle siteId = .ok start)
    (contexts : List SelectorContext) :
    DeclaredStore (Run.run (step undeclared) start contexts).agent.store := by
  have keep (g : Governed rt) (ctx : SelectorContext) (h : DeclaredStore g.agent.store) (_ : True) :
      DeclaredStore (step undeclared g ctx).agent.store := declared_step laws undeclared ctx g h
  exact Run.run_invariant (I := fun g : Governed rt => DeclaredStore g.agent.store) keep
    (declared_reset laws hstart) fun _ _ => trivial

end Governed

end Declared

/-! ## What it chooses -/

/-- Every choice for a class the decision names is a link the class is permitted. -/
def Inside (decision : EligibilityDecision) (choices : List (String × Option String)) : Prop :=
  ∀ choice ∈ choices, (∃ cls ∈ decision.classes, cls.classId = choice.1) →
    ∀ linkId, choice.2 = some linkId → linkId ∈ decision.permittedFor choice.1

/-- A class of the context to which the bundle admits no link leaves none that is observed up
among the links admitted to the bundle's first class. -/
def NothingToBorrow (bundle : PolicyBundle) (ctx : SelectorContext) : Prop :=
  ∀ c ∈ ctx.classes, ∀ tclass first,
    (sortedClasses bundle.trafficClasses).find? (·.id = c.1) = some tclass →
    (sortedClasses bundle.trafficClasses).head? = some first →
    (∀ link ∈ bundle.links,
      admits bundle.rules (ctx.evidence.asOf ctx.now) ctx.now tclass link = false) →
    ∀ link ∈ bundle.links, admits bundle.rules (ctx.evidence.asOf ctx.now) ctx.now first link = true →
      observedUp ctx.evidence link.id = false

section Choices
variable {rt : Runtime} {bundle : PolicyBundle} {ctx : SelectorContext} {siteId : String}
  {degraded : Bool} {decision : EligibilityDecision}

/-- Choosing stays inside a decision exactly when no class is lent what it is not permitted. -/
theorem inside_iff (h : decide rt bundle ctx.evidence ctx.now siteId degraded = .ok decision) :
    Inside decision (ctx.classes.map fun c => (c.1, choose ctx.evidence decision c.1)) ↔
    NothingToBorrow bundle ctx := by
  simp only [Inside, List.forall_mem_map, choose_inside_iff]
  refine forall₂_congr ?_
  intro c _
  have hfind := find_class h c.1
  have hhead : decision.classes.head? = (sortedClasses bundle.trafficClasses).head?.map
      (eligibility bundle.rules (ctx.evidence.asOf ctx.now) ctx.now bundle.links) := by
    rw [(decide_ok h).2.2.2.2.2.2, List.head?_map]
  cases hclass : (sortedClasses bundle.trafficClasses).find? (·.id = c.1) with
  | none =>
    rw [hclass] at hfind
    -- the bundle does not know the class, so the decision does not name it
    refine iff_of_true (fun ⟨cls, hcls, hid⟩ => ?_) fun _ _ h => by cases h
    exact absurd hid (by simpa using List.find?_eq_none.mp hfind cls hcls)
  | some tclass =>
    rw [hclass] at hfind
    have hnamed : ∃ cls ∈ decision.classes, cls.classId = c.1 :=
      ⟨_, List.mem_of_find?_eq_some hfind, by simpa using List.find?_some hfind⟩
    have hpermitted : decision.permittedFor c.1 = (eligibility bundle.rules
        (ctx.evidence.asOf ctx.now) ctx.now bundle.links tclass).permitted := by
      rw [EligibilityDecision.permittedFor, hfind]
      rfl
    rw [hpermitted, permitted_eq_nil, hhead]
    simp only [hnamed, true_imp_iff, Option.map_eq_some_iff, forall_exists_index, and_imp,
      forall_apply_eq_imp_iff₂, mem_permitted, Option.some.injEq]
    constructor
    · rintro h _ first rfl hfirst hnone link hl ha
      exact h first hfirst hnone link.id link hl rfl ha
    · rintro h first hfirst hnone _ link hl rfl ha
      exact h tclass first rfl hfirst hnone link hl ha

end Choices

/-! ## In a run -/

section Runs
variable {rt : Runtime} (laws : rt.Lawful)
  {undeclared : Undeclared}

namespace Governed

/-- A step that returned took a decision under what governed once the site had been in contact. -/
theorem call_ok {ctx : SelectorContext} {g g' : Governed rt}
    {choices : List (String × Option String)}
    (h : call undeclared ctx g = (.ok choices, g')) {b : PolicyBundle} {degraded : Bool}
    (hcurrent : (contact ctx g).2.agent.store.current ctx.now = (b.toWire, degraded)) :
    ∃ d siteId, (decision undeclared ctx g).1 = .ok d ∧
      decide rt b ctx.evidence ctx.now siteId degraded = .ok d ∧
      choices = ctx.classes.map fun c => (c.1, choose ctx.evidence d c.1) := by
  obtain ⟨d, g₁, hdecision, h⟩ := Effect.bind_eq_ok_iff.mp h
  cases h
  obtain ⟨_, g₂, hcontact, hturn⟩ := Effect.bind_eq_ok_iff.mp hdecision
  rw [hcontact] at hcurrent
  have hrun : (runOnce (environment undeclared ctx) g₂.siteId ctx.now g₂.agent).1 = .ok d :=
    congrArg Prod.fst hturn
  refine ⟨d, g₂.siteId, congrArg Prod.fst hdecision, ?_, rfl⟩
  obtain ⟨d', a', hreached, henforce⟩ := Effect.bind_eq_ok_iff.mp
    (Prod.ext hrun rfl : runOnce (environment undeclared ctx) g₂.siteId ctx.now g₂.agent = (.ok d, _))
  obtain rfl : d = d' := (enforce_ok (congrArg Prod.fst henforce)).1
  -- the evidence the site observed is the evidence of the step
  obtain ⟨observations, hobserve, hdecide⟩ := authorise_decided (congrArg Prod.fst hreached)
  cases hobserve
  rw [hcurrent] at hdecide
  exact decideUnder_toWire.symm.trans hdecide

include laws in
/-- A turn returns where the decision can be taken and no two classes have one id. -/
theorem turn_returns {ctx : SelectorContext} {g : Governed rt} {b : PolicyBundle} {degraded : Bool}
    (hcurrent : g.agent.store.current ctx.now = (b.toWire, degraded))
    (hcounts : Counts g.agent.chain)
    {d : EligibilityDecision}
    (hdecide : decide rt b ctx.evidence ctx.now g.siteId degraded = .ok d)
    (hids : (d.classes.map (·.classId)).Nodup) : (turn undeclared ctx g).1 = .ok d := by
  have hunder : decideUnder rt (environment undeclared ctx) b.toWire ⟨ctx.evidence.observations⟩
      ctx.now g.siteId degraded = .ok d := decideUnder_toWire.trans hdecide
  have hready : Ready (fun lines log => lines = log) g.agent.chain g.agent.log g.agent :=
    ⟨rfl, rfl, rfl⟩
  obtain ⟨a', log', hreached, hready', hcounts'⟩ :=
    authorise_returns laws lawful_memorySink accepting_memorySink hready hcounts hcurrent rfl hunder
  show (runOnce (environment undeclared ctx) g.siteId ctx.now g.agent).1 = .ok d
  rw [runOnce_of_authorise hreached]
  exact enforce_returns laws accepting_memorySink hready' hcounts' rfl rfl
    (auditable_declared _ declared_ofRows _) (NoopDataplane.conforms_readback hids)

end Governed

include laws in
/-- In every step of every run that returned, the selector stays inside the decision it took
exactly when no class is lent what it is not permitted, under the bundle that governed. -/
theorem governed_inside_iff {authorityKey siteKey : rt.PrivateKey} {bundle : PolicyBundle}
    {siteId : String} {start : Governed rt}
    (hstart : Governed.reset authorityKey siteKey bundle siteId = .ok start)
    (contexts : List SelectorContext) {ctx : SelectorContext}
    {choices : List (String × Option String)}
    (hcall : (Governed.call undeclared ctx (Run.run (Governed.step undeclared) start contexts)).1 =
      .ok choices) :
    let g := Run.run (Governed.step undeclared) start contexts
    ∃ b degraded d, (Governed.contact ctx g).2.agent.store.current ctx.now =
        (PolicyBundle.toWire b, degraded) ∧
      (Governed.decision undeclared ctx g).1 = .ok d ∧ (Inside d choices ↔ NothingToBorrow b ctx) := by
  intro g
  have hstore : DeclaredStore g.agent.store := Governed.declared_run laws undeclared hstart contexts
  obtain ⟨b, degraded, hcurrent⟩ := (Governed.declared_contact laws ctx g hstore).current ctx.now
  obtain ⟨d, siteId', hdecision, hdecide, rfl⟩ := Governed.call_ok (Prod.ext hcall rfl) hcurrent
  exact ⟨b, degraded, d, hcurrent, hdecision, inside_iff hdecide⟩

end Runs

namespace Sample

def voice : TrafficClass := { TrafficClass.ofId "voice" with requiresEncryption := true }

/-- One link for some classes. -/
def siteBundle (classes : List TrafficClass) : PolicyBundle :=
  { bundle 1 with links := [fiber0], trafficClasses := classes }

/-- The link is up and the authority out of reach. -/
def offline (classes : List TrafficClass) : SelectorContext where
  now := clock 60
  evidence := ⟨[upAt "fiber0" 0]⟩
  links := [("fiber0", fiber0)]
  classes := classes.map fun c => (c.id, c)
  authorityReachable := false

/-- A step of a selector that was just built decides under its floor. -/
theorem offline_call (undeclared : Undeclared) (siteKey : standIn.PrivateKey)
    (classes : List TrafficClass)
    (hids : ((sortedClasses (floorClasses (some classes))).map (·.id)).Nodup) :
    ∃ start floor d, Governed.reset signer.key siteKey (siteBundle classes) "site-1" = .ok start ∧
      IsFloor [fiber0] (some (clock 0)) "authority-1" (some classes) floor ∧
      decide standIn floor (offline classes).evidence (clock 60) "site-1" true = .ok d ∧
      (Governed.contact (offline classes) start).2.agent.store.current (clock 60) =
        (floor.toWire, true) ∧
      (Governed.decision undeclared (offline classes) start).1 = .ok d ∧
      (Governed.call undeclared (offline classes) start).1 =
        .ok ((offline classes).classes.map fun c => (c.1, choose (offline classes).evidence d c.1)) := by
  obtain ⟨floor, d, hfloor, hcut, hdecide⟩ := floor_decides [fiber0] classes ⟨[upAt "fiber0" 0]⟩
  obtain ⟨signedFloor, hsign⟩ : ∃ signedFloor, signFloor ⟨signer.key, "authority-1"⟩ "site-1" [fiber0]
      classes (clock 0) = .ok signedFloor := signFloor_ok "site-1" rfl hfloor
  have hinstall := installFloor_signFloor lawful_standIn rfl hfloor hsign (cut_clock 0) hcut
  let store : BundleStore standIn :=
    ⟨standIn.publicKey signer.key, "authority-1", "site-1", floor.toWire, none, .int (-1), []⟩
  have hinit : BundleStore.init (standIn.publicKey signer.key) "authority-1" "site-1" signedFloor none
      (.memory (.int (-1))) none = .ok store :=
    BundleStore.init_ok.mpr ⟨floor.toWire, .int (-1), hinstall, rfl, rfl, rfl⟩
  obtain ⟨start, hreset, hstore, hsite, hcounts⟩ : ∃ start, Governed.reset signer.key siteKey
      (siteBundle classes) "site-1" = .ok start ∧ start.agent.store = store ∧
      start.siteId = "site-1" ∧ Counts start.agent.chain :=
    ⟨_, bind_eq_ok_iff.mpr ⟨signedFloor, hsign, bind_eq_ok_iff.mpr ⟨store, hinit, rfl⟩⟩, rfl, rfl,
      .int 1, rfl⟩
  have hcurrent : start.agent.store.current (clock 60) = (floor.toWire, true) := by
    rw [hstore]
    rfl
  have hclasses : (d.classes.map (·.classId)).Nodup := by
    rw [(decide_ok hdecide).2.2.2.2.2.2, (floorBundle_ok hfloor).2.2.2.1, List.map_map]
    exact hids
  have hturn : (Governed.turn undeclared (offline classes) start).1 = .ok d :=
    Governed.turn_returns lawful_standIn hcurrent hcounts (hsite ▸ hdecide) hclasses
  have hcontact : Governed.contact (offline classes) start = (.ok (), start) := rfl
  have hdecision : Governed.decision undeclared (offline classes) start = (.ok d, _) :=
    (Effect.bind_of_ok hcontact).trans (Prod.ext hturn rfl)
  refine ⟨start, floor, d, hreset, ⟨floor, hfloor, .inl rfl⟩, hdecide, hcurrent,
    congrArg Prod.fst hdecision, ?_⟩
  exact congrArg Prod.fst (Effect.bind_of_ok hdecision)

end Sample

/-- A class that is refused everything is given the link of the first class. -/
theorem refused_class_is_given_a_link : ∃ start choices d,
    let classes := [TrafficClass.ofId "bulk", Sample.voice]
    Governed.reset Sample.signer.key Sample.siteKey
    (Sample.siteBundle classes) "site-1" = .ok start ∧
    (Governed.call (fun _ _ _ => .error ⟨.TypeError, ""⟩) (Sample.offline classes) start).1 =
      .ok choices ∧
    (Governed.decision (fun _ _ _ => .error ⟨.TypeError, ""⟩) (Sample.offline classes) start).1 =
      .ok d ∧ ¬Inside d choices := by
  obtain ⟨start, floor, d, hreset, hfloor, hdecide, -, hdecision, hcall⟩ := Sample.offline_call
    (fun _ _ _ => .error ⟨.TypeError, ""⟩) Sample.siteKey [TrafficClass.ofId "bulk", Sample.voice]
    (by decide)
  refine ⟨start, _, d, hreset, hcall, hdecision, ?_⟩
  intro hinside
  obtain ⟨hlinks, hclasses, hrules⟩ := hfloor.fields
  have hborrow := (inside_iff hdecide).mp hinside ("voice", Sample.voice)
    (.tail _ (.head _)) Sample.voice (TrafficClass.ofId "bulk")
  rw [hclasses, hlinks, hrules] at hborrow
  have hrefused : admits (floorRules [TrafficClass.ofId "bulk", Sample.voice])
      ((EvidenceSnapshot.mk [Sample.upAt "fiber0" 0]).asOf (Sample.clock 60)) (Sample.clock 60)
      Sample.voice Sample.fiber0 = false := by
    rw [← Bool.not_eq_true, admits_floorRules (by simp)]
    exact fun hadmits => absurd (hadmits.encryption rfl) (by decide)
  have hadmitted : admits (floorRules [TrafficClass.ofId "bulk", Sample.voice])
      ((EvidenceSnapshot.mk [Sample.upAt "fiber0" 0]).asOf (Sample.clock 60)) (Sample.clock 60)
      (TrafficClass.ofId "bulk") Sample.fiber0 = true :=
    (admits_floorRules (by simp)).mpr (Sample.floorAdmits_up Sample.fiber0 (by decide))
  have hsilent :=
    hborrow rfl rfl (List.forall_mem_singleton.mpr hrefused) Sample.fiber0 (by simp) hadmitted
  exact absurd hsilent (by decide +kernel)

/-- A site of one class keeps inside what was decided. -/
theorem governed_inside_iff_sample : ∃ start choices,
    let classes := [TrafficClass.ofId "bulk"]
    let undeclared : Undeclared := fun _ _ _ => .error ⟨.TypeError, ""⟩
    Governed.reset Sample.signer.key Sample.siteKey
    (Sample.siteBundle classes) "site-1" = .ok start ∧
    (Governed.call undeclared (Sample.offline classes) start).1 = .ok choices ∧
    ∃ d, (Governed.decision undeclared (Sample.offline classes) start).1 = .ok d ∧
      Inside d choices := by
  obtain ⟨start, floor, d, hreset, hfloor, hdecide, hcurrent, hdecision, hcall⟩ := Sample.offline_call
    (fun _ _ _ => .error ⟨.TypeError, ""⟩) Sample.siteKey [TrafficClass.ofId "bulk"] (by decide)
  obtain ⟨b, degraded, d', hcurrent', hdecision', hiff⟩ :=
    governed_inside_iff lawful_standIn hreset [] hcall
  refine ⟨start, _, hreset, hcall, d', hdecision',
    hiff.mpr fun c _ tclass first htclass hfirst hnone => ?_⟩
  obtain rfl : b = floor := PolicyBundle.toWire_injective
    (congrArg Prod.fst (hcurrent'.symm.trans hcurrent))
  rw [hfloor.fields.2.1] at htclass hfirst
  obtain rfl : TrafficClass.ofId "bulk" = first := Option.some.inj hfirst
  obtain rfl : tclass = TrafficClass.ofId "bulk" :=
    List.mem_singleton.mp (List.mem_of_find?_eq_some htclass)
  exact fun link hlink hadmitted => absurd hadmitted (by simp [hnone link hlink])

end Pilotfish
