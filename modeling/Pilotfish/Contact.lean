import Pilotfish.Aliases
import Pilotfish.Selectors

/-!
# A site in and out of contact

The simulated authority reissues its bundle in every step in which it can be reached, under the
next sequence and a nonce made of it. The store compares both with what it has accepted, so the two
sides must count alike over a whole run.

Results:
1. `contact_returns`: what was reissued is accepted, and both sides move on together.
2. `turn_keeps`: a turn decides under what governs, and leaves the store as it was.
3. `stays_in_step`: no step of a run raises, and the site is degraded exactly when what was
   published at the last contact has ended.
-/

namespace Pilotfish
open Python

/-! ## The last contact -/

/-- The clock of the last step in which the authority could be reached. -/
def lastContact (contexts : List SelectorContext) : Option DateTime :=
  (contexts.filter (·.authorityReachable)).getLast?.map (·.now)

/-- The last contact once a step was taken. -/
def contactAfter (last : Option DateTime) (ctx : SelectorContext) : Option DateTime :=
  if ctx.authorityReachable then some ctx.now else last

theorem lastContact_concat (contexts : List SelectorContext) (ctx : SelectorContext) :
    lastContact (contexts ++ [ctx]) = contactAfter (lastContact contexts) ctx := by
  unfold lastContact contactAfter
  rw [List.filter_append]
  by_cases hreachable : ctx.authorityReachable = true
  · simp [hreachable]
  · simp [hreachable]

/-- How many bundles were published. -/
def publications (contexts : List SelectorContext) : Nat :=
  contexts.countP (·.authorityReachable)

/-- What was published at the last contact, for some seconds, has not ended. -/
def InForce (validity : Int) (last : Option DateTime) (now : DateTime) : Prop :=
  ∃ t, last = some t ∧ now.us < t.us + validity * 1000000

/-- The instants that a step computes are in the calendar: the end of what it publishes, and the
end of its decision under the bundle or, after that has ended, under the floor. -/
structure InCalendar (bundle : PolicyBundle) (validity : Int) (last : Option DateTime)
    (ctx : SelectorContext) : Prop where
  publication : ctx.authorityReachable = true →
    ∃ t, ctx.now.add (validity * 1000000) = .ok t
  decision : InForce validity (contactAfter last ctx) ctx.now →
    ∃ t, validUntil bundle ctx.now = .ok t
  degraded : ¬InForce validity (contactAfter last ctx) ctx.now →
    ∃ t, ctx.now.add (60 * 1000000) = .ok t

/-! ## Both sides in step -/

/-- The store has accepted all that was published: its sequence, its nonces and its bundle are those
of the publisher. -/
structure InStep {rt : Runtime} (authorityKey : rt.PrivateKey) (bundle floor : PolicyBundle)
    (validity : Int) (last : Option DateTime) (published : Nat) (g : Governed rt) : Prop where
  key : g.authorityKey = authorityKey
  source : g.bundle = bundle
  validityS : g.validityS = validity
  trusted : g.agent.store.trustedKey = rt.publicKey authorityKey
  issuer : g.agent.store.expectedIssuer = "authority-1"
  floor : g.agent.store.floor = floor.toWire
  epoch : g.epoch = published
  mark : ∃ m, g.agent.epochs = .memory (.int m)
  sequence : ∃ m ≤ (published : Int), g.agent.store.sequence = .int m
  nonces : ∀ v ∈ g.agent.store.seenNonces, ∃ k ≤ published, v = .bytes (BigEndian.bytes 16 k)
  governs : match last with
    | none => g.agent.store.bundle = none
    | some t => ∃ c : PolicyBundle, g.agent.store.bundle = some c.toWire ∧
        c.notAfter.us = t.us + validity * 1000000 ∧ c.trafficClasses = bundle.trafficClasses ∧
        c.decisionTtlS = bundle.decisionTtlS
  counts : Counts g.agent.chain

section Steps
variable {rt : Runtime} (laws : rt.Lawful) {authorityKey siteKey : rt.PrivateKey}
  {bundle floor : PolicyBundle} {validity : Int} {siteId : String}

include laws in
theorem inStep_reset {start : Governed rt}
    (hvalidity : bundle.notAfter.us - bundle.issuedAt.us = validity * 1000000)
    (h : Governed.reset authorityKey siteKey bundle siteId = .ok start) :
    ∃ floor : PolicyBundle, floor.decisionTtlS = 60 ∧
      floor.trafficClasses = floorClasses (some bundle.trafficClasses) ∧
      InStep authorityKey bundle floor validity none 0 start := by
  obtain ⟨signedFloor, hsign, h⟩ := bind_eq_ok_iff.mp h
  obtain ⟨store, hinit, h⟩ := bind_eq_ok_iff.mp h
  cases h
  obtain ⟨w, sequence, hinstall, -, hread, rfl⟩ := BundleStore.init_ok.mp hinit
  cases hread
  obtain ⟨floor, c, hfloor, hcut, rfl⟩ := installed_signFloor laws hsign hinstall
  obtain ⟨-, -, httl, -, hclasses⟩ := PolicyBundle.cut_fields hcut
  refine ⟨c, ?_, ?_, ?_⟩
  · rw [httl]
    obtain ⟨notAfter, -, hmade⟩ := bind_eq_ok_iff.mp hfloor
    cases hmade
    rfl
  · rw [hclasses, (floorBundle_ok hfloor).2.2.2.1]
  · exact {
      key := rfl
      source := rfl
      validityS := DateTime.totalSeconds_of_whole hvalidity
      trusted := rfl
      issuer := rfl
      floor := rfl
      epoch := rfl
      mark := ⟨-1, rfl⟩
      sequence := ⟨-1, by decide, rfl⟩
      nonces := by
        intro v hv
        cases hv
      governs := rfl
      counts := ⟨.int 1, rfl⟩ }

variable {last : Option DateTime} {published : Nat} {g : Governed rt} {ctx : SelectorContext}

theorem memory_commit (m n : Int) : ∃ k, ((EpochStore.memory (.int m)).commit {} (.int n)) =
    (.ok (), .memory (.int k)) := by
  by_cases hlt : m < n
  · exact ⟨n, by simp [EpochStore.commit, EpochStore.commitSteps, EpochStore.performAll,
      EpochStore.perform, hlt]⟩
  · exact ⟨m, by simp [EpochStore.commit, EpochStore.commitSteps, EpochStore.performAll,
      EpochStore.perform, hlt]⟩

/-- What is published next at a clock. -/
def reissued (bundle : PolicyBundle) (published : Nat) (now until' : DateTime) : PolicyBundle :=
  { bundle with sequence := ((published + 1 : Nat) : Int), issuedAt := now, notAfter := until' }

theorem reissue_returns (h : InStep authorityKey bundle floor validity last published g)
    {now until' : DateTime} (huntil : now.add (validity * 1000000) = .ok until')
    (hcount : published + 1 < 256 ^ 16) :
    ∃ envelopeBytes, Governed.publish now g = (.ok envelopeBytes, { g with epoch := published + 1 }) ∧
      BundleSigner.publish ⟨authorityKey, "authority-1"⟩ (reissued bundle published now until') now
        (BigEndian.bytes 16 (published + 1)) = .ok envelopeBytes := by
  have hpublish : BundleSigner.publish ⟨authorityKey, "authority-1"⟩
      (reissued bundle published now until') now (BigEndian.bytes 16 (published + 1)) = .ok _ :=
    publish_ok (BigEndian.length_bytes 16 (published + 1))
  have hreissue : ({ g with epoch := g.epoch + 1 } : Governed rt).reissue now =
      BundleSigner.publish ⟨authorityKey, "authority-1"⟩ (reissued bundle published now until') now
        (BigEndian.bytes 16 (published + 1)) := by
    have hnonce : toBytes16 (published + 1) = .ok (BigEndian.bytes 16 (published + 1)) :=
      if_pos hcount
    unfold Governed.reissue
    simp only [h.validityS, DateTime.floatUs_intCast, huntil, h.epoch, hnonce, h.source, h.key]
    rfl
  have hcall : Governed.publish now g = (.ok _, { g with epoch := g.epoch + 1 }) :=
    Prod.ext (hreissue.trans hpublish) rfl
  rw [h.epoch] at hcall
  exact ⟨_, hcall, hpublish⟩

/-- No nonce on record is made of as high a number as the next. -/
theorem InStep.unseen (h : InStep authorityKey bundle floor validity last published g)
    (hcount : published + 1 < 256 ^ 16) :
    g.agent.store.seenNonces.any (·.eq (.bytes (BigEndian.bytes 16 (published + 1)))) = false := by
  rw [List.any_eq_false]
  intro v hv heq
  obtain ⟨k, hk, rfl⟩ := h.nonces v hv
  have hsame : BigEndian.bytes 16 k = BigEndian.bytes 16 (published + 1) := by
    simpa [Value.eq] using heq
  have hcollide := BigEndian.bytes_injective (by omega) hcount hsame
  omega

/-- The next sequence is above the mark. -/
theorem InStep.newer (h : InStep authorityKey bundle floor validity last published g) :
    (Value.int ((published + 1 : Nat) : Int)).le g.agent.store.sequence = .ok false := by
  obtain ⟨m, hm, hsequence⟩ := h.sequence
  rw [hsequence, Value.le_int, Except.ok.injEq, decide_eq_false_iff_not]
  push_cast
  exact not_le.mpr (Int.lt_add_one_of_le hm)

include laws in
/-- What is published at a whole second is above all that the store has on record, and arrives. -/
theorem accept_returns (h : InStep authorityKey bundle floor validity last published g)
    (hissuer : bundle.authorityId = "authority-1") (hpos : 1 ≤ validity) {rules : List Rule}
    (hrules : bundle.rules.mapM Rule.cut = .ok rules) {now until' : DateTime} {n : Int}
    (hnow : now.us = n * 1000000) (huntil : now.add (validity * 1000000) = .ok until')
    (hcount : published + 1 < 256 ^ 16) {envelopeBytes : Bytes}
    (hsigned : BundleSigner.publish ⟨authorityKey, "authority-1"⟩
      (reissued bundle published now until') now (BigEndian.bytes 16 (published + 1)) =
        .ok envelopeBytes) :
    let c : PolicyBundle := { reissued bundle published now until' with rules := rules }
    ∃ k, Agent.accept ⟨envelopeBytes, now, {}⟩ g.agent = (.ok c.toWire, { g.agent with
      store := g.agent.store.install c.toWire (.bytes (BigEndian.bytes 16 (published + 1)))
      epochs := .memory (.int k) }) := by
  intro c
  have hus : until'.us = now.us + validity * 1000000 := DateTime.ofUs_eq_ok.mp huntil
  have hcut : (reissued bundle published now until').cut = .ok c :=
    PolicyBundle.cut_eq_ok_iff.mpr ⟨DateTime.cut_of_whole hnow,
      DateTime.cut_of_whole (n := n + validity) (by show until'.us = _; omega), hrules, rfl⟩
  have hvalid : now.us < c.notAfter.us := by
    show now.us < until'.us
    omega
  have hstamped : now.timestamp ≤ horizon now :=
    timestamp_cut_le_horizon le_rfl (DateTime.cut_of_whole hnow)
  have hadmitted := (admitted_publish laws (BigEndian.length_bytes 16 (published + 1)) hsigned
    h.trusted h.issuer).mpr ⟨now, c, DateTime.cut_of_whole hnow, hcut, rfl, rfl, hstamped,
      h.unseen hcount, hissuer, h.newer, hvalid⟩
  obtain ⟨m, hmark⟩ := h.mark
  obtain ⟨k, hcommit⟩ := memory_commit m ((published + 1 : Nat) : Int)
  have hcommitted : (EpochStore.memory (.int m)).commit {} c.toWire.sequence =
      (.ok (), .memory (.int k)) := hcommit
  have haccept := BundleStore.accept_of_admitted hadmitted rfl (congrArg Prod.fst hcommitted)
  rw [hcommitted] at haccept
  refine ⟨k, ?_⟩
  unfold Agent.accept
  dsimp only
  rw [hmark, haccept]
  rfl

include laws in
/-- A contact returns, and both sides have moved on. -/
theorem contact_returns (h : InStep authorityKey bundle floor validity last published g)
    (hissuer : bundle.authorityId = "authority-1") (hpos : 1 ≤ validity) {rules : List Rule}
    (hrules : bundle.rules.mapM Rule.cut = .ok rules) (hreachable : ctx.authorityReachable = true)
    {n : Int} (hnow : ctx.now.us = n * 1000000) {until' : DateTime}
    (huntil : ctx.now.add (validity * 1000000) = .ok until') (hcount : published + 1 < 256 ^ 16) :
    ∃ g', Governed.contact ctx g = (.ok (), g') ∧
      InStep authorityKey bundle floor validity (some ctx.now) (published + 1) g' := by
  obtain ⟨envelopeBytes, hpublish, hsigned⟩ := reissue_returns h huntil hcount
  obtain ⟨k, haccept⟩ := accept_returns laws h hissuer hpos hrules hnow huntil hcount hsigned
  let agent : Agent rt memoryReceiptSink := { g.agent with
    store := g.agent.store.install
      ({ reissued bundle published ctx.now until' with rules := rules } : PolicyBundle).toWire
      (.bytes (BigEndian.bytes 16 (published + 1)))
    epochs := .memory (.int k) }
  have hzoom : Effect.zoom Governed.agent Governed.setAgent
      (Agent.accept ⟨envelopeBytes, ctx.now, {}⟩) { g with epoch := published + 1 } =
        (.ok _, { g with epoch := published + 1, agent := agent }) := Effect.zoom_eq haccept
  have hcontact : Governed.contact ctx g =
      (.ok (), { g with epoch := published + 1, agent := agent }) := by
    unfold Governed.contact
    rw [if_pos hreachable, Effect.bind_of_ok hpublish, Effect.bind_of_ok hzoom]
    rfl
  refine ⟨_, hcontact, ?_⟩
  exact {
    key := h.key
    source := h.source
    validityS := h.validityS
    trusted := h.trusted
    issuer := h.issuer
    floor := h.floor
    epoch := rfl
    mark := ⟨k, rfl⟩
    sequence := ⟨_, le_rfl, rfl⟩
    nonces := by
      intro v hv
      rcases List.mem_cons.mp hv with rfl | hv
      · exact ⟨_, le_rfl, rfl⟩
      · obtain ⟨j, hj, rfl⟩ := h.nonces v hv
        exact ⟨j, hj.trans (Nat.le_succ _), rfl⟩
    governs := ⟨_, rfl, DateTime.ofUs_eq_ok.mp huntil, rfl, rfl⟩
    counts := h.counts }

/-! ## A turn -/

/-- What governs is the bundle of the last contact while that is in force, and the floor after. -/
theorem current_inStep (h : InStep authorityKey bundle floor validity last published g)
    (now : DateTime) :
    (InForce validity last now → ∃ c : PolicyBundle, g.agent.store.current now = (c.toWire, false) ∧
      c.trafficClasses = bundle.trafficClasses ∧ c.decisionTtlS = bundle.decisionTtlS) ∧
    (¬InForce validity last now → g.agent.store.current now = (floor.toWire, true)) := by
  have hgoverns := h.governs
  cases last with
  | none =>
    constructor
    · rintro ⟨t, ht, -⟩
      cases ht
    · intro _
      rw [← h.floor]
      refine BundleStore.current_degraded.mpr ⟨rfl, ?_⟩
      intro b hb
      rw [hgoverns] at hb
      cases hb
  | some t =>
    obtain ⟨c, hbundle, hend, hclasses, httl⟩ := hgoverns
    constructor
    · rintro ⟨t', ht, hlt⟩
      cases ht
      refine ⟨c, BundleStore.current_not_degraded.mpr ⟨hbundle, ?_⟩, hclasses, httl⟩
      show now.us < c.notAfter.us
      omega
    · intro hover
      rw [← h.floor]
      refine BundleStore.current_degraded.mpr ⟨rfl, ?_⟩
      intro b hb
      obtain rfl := Option.some.inj (hbundle.symm.trans hb)
      show c.notAfter.us ≤ now.us
      exact not_lt.mp fun hlt => hover ⟨t, rfl, by omega⟩

/-- A turn records and does nothing else to its agent. -/
def OnlyRecords (a b : Agent rt memoryReceiptSink) : Prop :=
  b.store = a.store ∧ b.epochs = a.epochs ∧ (Counts a.chain → Counts b.chain)

variable (undeclared : Undeclared) (ctx)

include laws in
theorem turn_onlyRecords (siteId : String) (now : DateTime) : Effect.Within OnlyRecords
    (runOnce (Governed.environment undeclared ctx) siteId now :
      Effect Exc (Agent rt memoryReceiptSink) _) := by
  have h : Undisturbed (Governed.environment undeclared ctx) := ⟨rfl, fun _ => rfl, fun _ => rfl⟩
  refine runOnce_within h (fun _ => ⟨rfl, rfl, id⟩) ?_ ?_
  · rintro a b c ⟨hstore, hepochs, hcounts⟩ ⟨hstore', hepochs', hcounts'⟩
    exact ⟨hstore'.trans hstore, hepochs'.trans hepochs, hcounts' ∘ hcounts⟩
  · intro entry a
    exact ⟨rfl, rfl, fun hcounts => hcounts.recordEntry laws entry⟩

include laws in
theorem turn_keeps (h : InStep authorityKey bundle floor validity last published g) :
    InStep authorityKey bundle floor validity last published (Governed.turn undeclared ctx g).2 := by
  obtain ⟨hstore, hepochs, hcounts⟩ := turn_onlyRecords laws ctx undeclared g.siteId ctx.now g.agent
  have hturn : (Governed.turn undeclared ctx g).2 = { g with agent :=
      (runOnce (Governed.environment undeclared ctx) g.siteId ctx.now g.agent).2 } := rfl
  rw [hturn]
  exact {
    key := h.key
    source := h.source
    validityS := h.validityS
    trusted := (congrArg _ hstore).trans h.trusted
    issuer := (congrArg _ hstore).trans h.issuer
    floor := (congrArg _ hstore).trans h.floor
    epoch := h.epoch
    mark := by simpa only [hepochs] using h.mark
    sequence := by simpa only [hstore] using h.sequence
    nonces := by simpa only [hstore] using h.nonces
    governs := by simpa only [hstore] using h.governs
    counts := hcounts h.counts }

include laws in
/-- A turn that finds the end of its decision in the calendar returns, and is degraded exactly when
nothing is in force. -/
theorem turn_decides (h : InStep authorityKey bundle floor validity last published g)
    (httl : floor.decisionTtlS = 60)
    (hclasses : floor.trafficClasses = floorClasses (some bundle.trafficClasses))
    (hids : (bundle.trafficClasses.map (·.id)).Nodup)
    (hdecision : InForce validity last ctx.now → ∃ t, validUntil bundle ctx.now = .ok t)
    (hdegraded : ¬InForce validity last ctx.now → ∃ t, ctx.now.add (60 * 1000000) = .ok t) :
    ∃ d, (Governed.turn undeclared ctx g).1 = .ok d ∧
      (d.degraded = false ↔ InForce validity last ctx.now) := by
  obtain ⟨hforce, hfloor⟩ := current_inStep h ctx.now
  by_cases hin : InForce validity last ctx.now
  · obtain ⟨c, hcurrent, hsame, hsamettl⟩ := hforce hin
    obtain ⟨t, ht⟩ := hdecision hin
    have huntil : validUntil c ctx.now = .ok t := by rwa [validUntil, hsamettl]
    obtain ⟨d, hdecide⟩ : ∃ d, decide rt c ctx.evidence ctx.now g.siteId false = .ok d :=
      decide_returns huntil
    refine ⟨d, Governed.turn_returns laws hcurrent h.counts hdecide ?_, ?_⟩
    · exact (nodup_classIds hdecide).mpr (by rwa [hsame])
    · exact iff_of_true (decide_ok hdecide).2.2.2.2.2.1 hin
  · obtain ⟨t, ht⟩ := hdegraded hin
    have huntil : validUntil floor ctx.now = .ok t := by
      rw [validUntil, httl]
      exact ht
    obtain ⟨d, hdecide⟩ : ∃ d, decide rt floor ctx.evidence ctx.now g.siteId true = .ok d :=
      decide_returns huntil
    refine ⟨d, Governed.turn_returns laws (hfloor hin) h.counts hdecide ?_, ?_⟩
    · refine (nodup_classIds hdecide).mpr ?_
      rw [hclasses]
      unfold floorClasses
      split
      · simp_all
      · simp
    · refine iff_of_false ?_ hin
      rw [(decide_ok hdecide).2.2.2.2.2.1]
      decide

/-! ## A step and a run -/

/-- What a bundle must be like for a simulated authority to reissue it: it names the authority, its
classes and directives can be told apart and read back, and it is valid for whole seconds. -/
structure Reissuable (bundle : PolicyBundle) (validity : Int) : Prop where
  issuer : bundle.authorityId = "authority-1"
  classIds : (bundle.trafficClasses.map (·.id)).Nodup
  directives : ∃ rules, bundle.rules.mapM Rule.cut = .ok rules
  whole : bundle.notAfter.us - bundle.issuedAt.us = validity * 1000000
  positive : 1 ≤ validity

include laws in
/-- A step returns and keeps both sides in step. -/
theorem call_returns (hbundle : Reissuable bundle validity)
    (httl : floor.decisionTtlS = 60)
    (hclasses : floor.trafficClasses = floorClasses (some bundle.trafficClasses))
    (h : InStep authorityKey bundle floor validity last published g)
    (hwhole : ∃ n, ctx.now.us = n * 1000000) (hcalendar : InCalendar bundle validity last ctx)
    (hcount : published + [ctx].countP (·.authorityReachable) < 256 ^ 16) :
    ∃ choices g', (Governed.contact ctx g).1 = .ok () ∧
      Governed.call undeclared ctx g = (.ok choices, g') ∧
      InStep authorityKey bundle floor validity (contactAfter last ctx)
        (published + [ctx].countP (·.authorityReachable)) g' ∧
      (g'.lastDegraded = false ↔ InForce validity (contactAfter last ctx) ctx.now) := by
  obtain ⟨n, hnow⟩ := hwhole
  obtain ⟨rules, hrules⟩ := hbundle.directives
  obtain ⟨g₁, hcontact, h₁⟩ : ∃ g₁, Governed.contact ctx g = (.ok (), g₁) ∧
      InStep authorityKey bundle floor validity (contactAfter last ctx)
        (published + [ctx].countP (·.authorityReachable)) g₁ := by
    by_cases hreachable : ctx.authorityReachable = true
    · obtain ⟨until', huntil⟩ := hcalendar.publication hreachable
      simp only [contactAfter, hreachable, if_true, List.countP_singleton] at hcount ⊢
      exact contact_returns laws h hbundle.issuer hbundle.positive hrules hreachable hnow huntil hcount
    · simp only [contactAfter, hreachable, List.countP_singleton]
      refine ⟨g, ?_, h⟩
      unfold Governed.contact
      rw [if_neg hreachable]
      rfl
  obtain ⟨d, hturn, hdegraded⟩ := turn_decides laws ctx undeclared h₁ httl hclasses hbundle.classIds
    hcalendar.decision hcalendar.degraded
  have hdecision : Governed.decision undeclared ctx g = (.ok d, _) :=
    (Effect.bind_of_ok hcontact).trans (Prod.ext hturn rfl)
  have hkept := turn_keeps laws ctx undeclared h₁
  refine ⟨_, _, congrArg Prod.fst hcontact, Effect.bind_of_ok hdecision, ?_, hdegraded⟩
  exact { hkept with }

variable {undeclared}

include laws in
/-- Both sides are in step after any run. -/
theorem inStep_run (hbundle : Reissuable bundle validity) (httl : floor.decisionTtlS = 60)
    (hclasses : floor.trafficClasses = floorClasses (some bundle.trafficClasses))
    {start : Governed rt} (hstart : InStep authorityKey bundle floor validity none 0 start)
    {contexts : List SelectorContext} (hwhole : ∀ c ∈ contexts, ∃ n, c.now.us = n * 1000000)
    (hcalendar : ∀ before c after, before ++ c :: after = contexts →
      InCalendar bundle validity (lastContact before) c)
    (hcount : publications contexts < 256 ^ 16) :
    InStep authorityKey bundle floor validity (lastContact contexts) (publications contexts)
      (Run.run (Governed.step undeclared) start contexts) := by
  induction contexts using List.reverseRecOn with
  | nil => exact hstart
  | append_singleton before ctx ih =>
    have hmore : publications (before ++ [ctx]) =
        publications before + [ctx].countP (·.authorityReachable) := List.countP_append
    rw [hmore] at hcount ⊢
    have hbefore := ih (fun c hc => hwhole c (List.mem_append_left _ hc))
      (fun b c after hsplit => hcalendar b c (after ++ [ctx]) (by rw [← hsplit]; simp)) (by omega)
    obtain ⟨choices, g', -, hcall, hstep, -⟩ := call_returns laws ctx undeclared hbundle httl hclasses
      hbefore (hwhole ctx (by simp)) (hcalendar before ctx [] rfl) hcount
    rw [lastContact_concat, Run.run_append, Run.run_cons, Run.run_nil, Governed.step, hcall]
    exact hstep

end Steps

/-- No step of a run has its publication refused or raises, and after each the selector is degraded
exactly when what was published at the last contact has ended. -/
theorem stays_in_step {rt : Runtime} (laws : rt.Lawful)
    {undeclared : Undeclared}
    {authorityKey siteKey : rt.PrivateKey} {bundle : PolicyBundle} {validity : Int}
    (hbundle : Reissuable bundle validity) {siteId : String} {start : Governed rt}
    (hstart : Governed.reset authorityKey siteKey bundle siteId = .ok start)
    {contexts : List SelectorContext} (hwhole : ∀ c ∈ contexts, ∃ n, c.now.us = n * 1000000)
    (hcalendar : ∀ before c after, before ++ c :: after = contexts →
      InCalendar bundle validity (lastContact before) c)
    (hcount : publications contexts < 256 ^ 16) {before after : List SelectorContext}
    {ctx : SelectorContext} (hsplit : before ++ ctx :: after = contexts) :
    let g := Run.run (Governed.step undeclared) start before
    (Governed.contact ctx g).1 = .ok () ∧ ∃ choices g',
      Governed.call undeclared ctx g = (.ok choices, g') ∧
      (g'.lastDegraded = false ↔ ∃ t, lastContact (before ++ [ctx]) = some t ∧
        ctx.now.us < t.us + validity * 1000000) := by
  intro g
  obtain ⟨floor, httl, hclasses, hinit⟩ := inStep_reset laws hbundle.whole hstart
  have hcounts : publications before + [ctx].countP (·.authorityReachable) +
      publications after = publications contexts := by
    rw [← hsplit, List.append_cons, publications, publications, publications, List.countP_append,
      List.countP_append]
  have hbefore : InStep authorityKey bundle floor validity (lastContact before)
      (publications before) g := by
    refine inStep_run laws hbundle httl hclasses hinit ?_ ?_ (by omega)
    · intro c hc
      exact hwhole c (hsplit ▸ List.mem_append_left _ hc)
    · intro b c a hb
      exact hcalendar b c (a ++ ctx :: after) (by rw [← hsplit, ← hb]; simp)
  obtain ⟨choices, g', hcontact, hcall, -, hdegraded⟩ := call_returns laws ctx undeclared hbundle
    httl hclasses hbefore (hwhole ctx (hsplit ▸ by simp)) (hcalendar before ctx after hsplit) (by omega)
  rw [← lastContact_concat] at hdegraded
  exact ⟨hcontact, choices, g', hcall, hdegraded⟩

namespace Sample

/-- The link is up and the authority can be reached. -/
def online : SelectorContext := { offline [TrafficClass.ofId "bulk"] with authorityReachable := true }

theorem reset_returns {bundle : PolicyBundle} (h : bundle.issuedAt = clock 0) :
    ∃ start, Governed.reset signer.key siteKey bundle "site-1" = .ok start := by
  obtain ⟨floor, hfloor, hcut⟩ := floorBundle_whole (n := 1787918400)
    (by rw [h]; rfl : bundle.issuedAt.us = _) (by decide) bundle.links "authority-1"
    bundle.trafficClasses
  obtain ⟨signedFloor, hsign⟩ : ∃ signedFloor, signFloor ⟨signer.key, "authority-1"⟩ "site-1"
      bundle.links bundle.trafficClasses bundle.issuedAt = .ok signedFloor :=
    signFloor_ok "site-1" rfl hfloor
  have hinstall := installFloor_signFloor lawful_standIn rfl hfloor hsign (by rw [h]; exact cut_clock 0)
    hcut
  have hinit : BundleStore.init (standIn.publicKey signer.key) "authority-1" "site-1" signedFloor none
      (.memory (.int (-1))) none = .ok _ :=
    BundleStore.init_ok.mpr ⟨floor.toWire, .int (-1), hinstall, rfl, rfl, rfl⟩
  exact ⟨_, bind_eq_ok_iff.mpr ⟨signedFloor, hsign, bind_eq_ok_iff.mpr ⟨_, hinit, rfl⟩⟩⟩

theorem reissuable (ttl : Int) :
    Reissuable { siteBundle [TrafficClass.ofId "bulk"] with decisionTtlS := ttl } 21600 where
  issuer := rfl
  classIds := List.nodup_singleton _
  directives := ⟨_, rfl⟩
  whole := by
    show (clock 21600).us - (clock 0).us = 21600 * 1000000
    decide
  positive := by decide

end Sample

/-- A bundle whose decisions are valid for longer than there are dates makes the first step raise. -/
theorem long_decisions_raise : ∃ start e,
    Reissuable { Sample.siteBundle [TrafficClass.ofId "bulk"] with decisionTtlS := 10 ^ 15 } 21600 ∧
    Governed.reset Sample.signer.key Sample.siteKey
      { Sample.siteBundle [TrafficClass.ofId "bulk"] with decisionTtlS := 10 ^ 15 } "site-1" =
        .ok start ∧
    (Governed.call (fun _ _ _ => .error ⟨.TypeError, ""⟩) Sample.online start).1 = .error e := by
  have hbundle := Sample.reissuable (10 ^ 15)
  obtain ⟨start, hreset⟩ : ∃ start, Governed.reset Sample.signer.key Sample.siteKey
      { Sample.siteBundle [TrafficClass.ofId "bulk"] with decisionTtlS := 10 ^ 15 } "site-1" =
        .ok start := Sample.reset_returns rfl
  obtain ⟨floor, -, -, hinit⟩ := inStep_reset lawful_standIn hbundle.whole hreset
  have huntil : Sample.online.now.add (21600 * 1000000) = .ok (Sample.clock 21660) :=
    DateTime.ofUs_eq_ok.mpr rfl
  have hrules : [Rule.linkDown (N := Num) "R-DOWN"].mapM Rule.cut = .ok [.linkDown "R-DOWN"] := rfl
  obtain ⟨g, hcontact, hg⟩ := contact_returns lawful_standIn hinit hbundle.issuer hbundle.positive
    hrules rfl (rfl : Sample.online.now.us = 1787918460 * 1000000) huntil (by decide)
  obtain ⟨c, hcurrent, -, httl⟩ := (current_inStep hg Sample.online.now).1
    ⟨Sample.clock 60, rfl, by decide⟩
  cases hcall : (Governed.call (fun _ _ _ => .error ⟨.TypeError, ""⟩) Sample.online start).1 with
  | error e => exact ⟨start, e, hbundle, hreset, hcall⟩
  | ok choices =>
    -- a decision under that bundle would end somewhere
    obtain ⟨d, siteId, -, hdecide, -⟩ := Governed.call_ok (Prod.ext hcall rfl)
      (by rw [hcontact]; exact hcurrent)
    obtain ⟨-, -, hends, -⟩ := decide_ok hdecide
    rw [validUntil, httl] at hends
    cases hends

namespace Sample

/-- A step at that time, in contact or not. -/
def contextAt (seconds : UInt16) (reachable : Bool) : SelectorContext :=
  { offline [TrafficClass.ofId "bulk"] with
    now := clock seconds
    authorityReachable := reachable }

/-- Contact, an outage for longer than a bundle is valid, and contact again. -/
def outage : List SelectorContext :=
  [contextAt 60 true, contextAt 25200 false, contextAt 28800 true]

theorem inCalendar_contextAt (seconds : UInt16) (reachable : Bool) (last : Option DateTime) :
    InCalendar (siteBundle [TrafficClass.ofId "bulk"]) 21600 last (contextAt seconds reachable) := by
  have hadd (n : Int) (h : 0 ≤ n) (hday : n ≤ 86400) :
      ∃ t, (clock seconds).add (n * 1000000) = .ok t := by
    have hseconds : seconds.toNat < 2 ^ 16 := seconds.toNat_lt
    have hus : (clock seconds).us + n * 1000000 =
        (1787918400 + seconds.toNat + n) * 1000000 := by
      rw [add_mul]
      rfl
    refine ⟨⟨(1787918400 + seconds.toNat + n) * 1000000, ?_, ?_⟩, DateTime.ofUs_eq_ok.mpr hus.symm⟩
    · unfold minSecond
      omega
    · unfold maxSecond
      omega
  obtain ⟨until', huntil⟩ := hadd 60 (by decide) (by decide)
  exact {
    publication := fun _ => hadd 21600 (by decide) (by decide)
    decision := fun _ => ⟨until', bind_eq_ok_iff.mpr ⟨60000000, rfl, huntil⟩⟩
    degraded := fun _ => ⟨until', huntil⟩ }

end Sample

/-- A site runs under the bundle it was sent, under its floor once that has ended, and under the
next bundle when it is in contact again. -/
theorem stays_in_step_sample : ∃ start,
    let undeclared : Undeclared := fun _ _ _ => .error ⟨.TypeError, ""⟩
    Governed.reset Sample.signer.key Sample.siteKey (Sample.siteBundle [TrafficClass.ofId "bulk"])
      "site-1" = .ok start ∧
    ∀ before ctx after, before ++ ctx :: after = Sample.outage → ∃ choices g',
      Governed.call undeclared ctx (Run.run (Governed.step undeclared) start before) =
        (.ok choices, g') ∧
      (g'.lastDegraded = false ↔ ctx.authorityReachable = true) := by
  obtain ⟨start, hreset⟩ : ∃ start, Governed.reset Sample.signer.key Sample.siteKey
      (Sample.siteBundle [TrafficClass.ofId "bulk"]) "site-1" = .ok start := Sample.reset_returns rfl
  have hmem {before after : List SelectorContext} {ctx : SelectorContext}
      (hsplit : before ++ ctx :: after = Sample.outage) : ctx ∈ Sample.outage :=
    hsplit ▸ List.mem_append_right _ List.mem_cons_self
  refine ⟨start, hreset, ?_⟩
  intro before ctx after hsplit
  have hcontexts (c : SelectorContext) (hc : c ∈ Sample.outage) :
      ∃ seconds reachable, c = Sample.contextAt seconds reachable := by
    simp only [Sample.outage, List.mem_cons, List.not_mem_nil, or_false] at hc
    rcases hc with rfl | rfl | rfl <;> exact ⟨_, _, rfl⟩
  have hwhole (c : SelectorContext) (hc : c ∈ Sample.outage) : ∃ n, c.now.us = n * 1000000 := by
    obtain ⟨seconds, reachable, rfl⟩ := hcontexts c hc
    exact ⟨_, rfl⟩
  have hcalendar (b : List SelectorContext) (c : SelectorContext) (a : List SelectorContext)
      (h : b ++ c :: a = Sample.outage) :
      InCalendar (Sample.siteBundle [TrafficClass.ofId "bulk"]) 21600 (lastContact b) c := by
    obtain ⟨seconds, reachable, rfl⟩ := hcontexts c (hmem h)
    exact Sample.inCalendar_contextAt seconds reachable (lastContact b)
  obtain ⟨-, choices, g', hcall, hdegraded⟩ := stays_in_step lawful_standIn (Sample.reissuable 60)
    hreset hwhole hcalendar (by decide) hsplit
  refine ⟨choices, g', hcall, hdegraded.trans ?_⟩
  -- the last contact before the end of the outage was its beginning
  rcases before with _ | ⟨b₁, _ | ⟨b₂, _ | ⟨b₃, before⟩⟩⟩
  · obtain rfl : ctx = _ := (List.cons.inj hsplit).1
    exact ⟨fun _ => rfl, fun _ => ⟨Sample.clock 60, rfl, by decide⟩⟩
  · obtain ⟨rfl, hrest⟩ := List.cons.inj hsplit
    obtain rfl : ctx = _ := (List.cons.inj hrest).1
    refine ⟨?_, fun h => nomatch h⟩
    rintro ⟨t, ht, hlt⟩
    obtain rfl : Sample.clock 60 = t := Option.some.inj ht
    exact absurd hlt (by decide)
  · obtain ⟨rfl, hrest⟩ := List.cons.inj hsplit
    obtain ⟨rfl, hlast⟩ := List.cons.inj hrest
    obtain rfl : ctx = _ := (List.cons.inj hlast).1
    exact ⟨fun _ => rfl, fun _ => ⟨Sample.clock 28800, rfl, by decide⟩⟩
  · simp [Sample.outage] at hsplit

end Pilotfish
