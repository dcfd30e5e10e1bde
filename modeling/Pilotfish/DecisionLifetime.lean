import Pilotfish.EffectAudit
import Pilotfish.Governance

/-!
# How long a decision is valid

A decision is valid for the time its bundle gives decisions, counted from the clock it was taken
at. The end of the bundle is compared with the clock only, so a decision that is taken shortly
before that end is still marked valid after it.

Results:
1. `validUntil_of_decided`: where the validity of a decision ends.
2. `governs_after`: what a store reports once more was delivered.
3. `decision_lifetime`: a decision ends with its bundle at the latest exactly when its time to live
   does, and until then its bundle is in force or was replaced.
-/

namespace Pilotfish
open Python

/-! ## The end of a decision -/

/-- Where the validity of a decision under a bundle ends, whatever its time to live is. -/
def wireValidUntil (bundle : WireBundle) (now : DateTime) : Except Exc DateTime := do
  now.add (← timedelta bundle.decisionTtlS)

section Ends
variable {rt : Runtime} {env : Environment} {bundle : WireBundle} {evidence : EvidenceSnapshot}
  {now : DateTime} {siteId : String} {degraded : Bool} {decision : EligibilityDecision}

theorem decisionTtlS_of_declared {b : PolicyBundle} (h : bundle.declared? = some b) :
    bundle.decisionTtlS = .int b.decisionTtlS := by
  unfold PolicyBundle.declared? at h
  simp only [Option.bind_eq_bind, Option.bind_eq_some_iff] at h
  obtain ⟨_, -, _, -, _, -, ttl, httl, _, -, _, -, _, -, hb⟩ := h
  obtain rfl := Option.some.inj hb
  exact OnWire.ofValue?_eq_some.mp httl

/-- A decision ends a time to live after the clock. -/
theorem validUntil_of_decided
    (h : decideUnder rt env bundle evidence now siteId degraded = .ok decision) :
    wireValidUntil bundle now = .ok decision.validUntil := by
  unfold decideUnder at h
  cases hdeclared : bundle.declared? with
  | some b =>
    rw [hdeclared] at h
    rw [wireValidUntil, decisionTtlS_of_declared hdeclared]
    exact (decide_ok h).2.2.1
  | none =>
    rw [hdeclared] at h
    obtain ⟨classes, -, h⟩ := bind_eq_ok_iff.mp h
    obtain ⟨us, hus, h⟩ := bind_eq_ok_iff.mp h
    obtain ⟨validUntil, hadd, h⟩ := bind_eq_ok_iff.mp h
    obtain ⟨data, -, h⟩ := bind_eq_ok_iff.mp h
    cases h
    exact bind_eq_ok_iff.mpr ⟨us, hus, hadd⟩

theorem wireValidUntil_ok {until' : DateTime} (h : wireValidUntil bundle now = .ok until') :
    ∃ us, timedelta bundle.decisionTtlS = .ok us ∧ until'.us = now.us + us := by
  obtain ⟨us, hus, hadd⟩ := bind_eq_ok_iff.mp h
  exact ⟨us, hus, DateTime.ofUs_eq_ok.mp hadd⟩

end Ends

/-! ## What governs later -/

section Later
variable {rt : Runtime}

/-- After more deliveries a store holds the last bundle that was accepted since, or what it held. -/
theorem held_run (s : Held rt) (later : List Delivery) :
    ∃ since, (Run.run Held.deliver s later).accepted = s.accepted ++ since ∧
      (Run.run Held.deliver s later).store.bundle =
        (since.getLast?.map Prod.snd).or s.store.bundle ∧
      (Run.run Held.deliver s later).store.floor = s.store.floor := by
  induction later generalizing s with
  | nil => exact ⟨[], by simp, rfl, rfl⟩
  | cons d later ih =>
    obtain ⟨since, haccepted, hbundle, hfloor⟩ := ih (s.deliver d)
    have hfixed : (s.deliver d).store.floor = s.store.floor := BundleStore.accept_fixed.2.2.2
    rw [Run.run_cons, haccepted, hbundle, hfloor, hfixed]
    cases hresult : (s.store.accept s.epochs d.faults d.envelopeBytes d.now).1 with
    | error e =>
      have hstore : (s.deliver d).store = s.store := BundleStore.accept_error hresult
      have hsame : (s.deliver d).accepted = s.accepted := by
        simp [Held.deliver, hresult, Except.toOption]
      exact ⟨since, by rw [hsame], by rw [hstore], rfl⟩
    | ok b =>
      obtain ⟨envelope, -, -, -, hafter⟩ := BundleStore.accept_ok hresult
      have hstore : (s.deliver d).store = s.store.install b envelope.nonce :=
        congrArg Prod.fst hafter
      have hmore : (s.deliver d).accepted = s.accepted ++ [(d.envelopeBytes, b)] := by
        simp [Held.deliver, hresult, Except.toOption]
      refine ⟨(d.envelopeBytes, b) :: since, by rw [hmore, List.append_assoc]; rfl, ?_, rfl⟩
      rw [hstore, BundleStore.install_bundle, List.getLast?_cons]
      cases since.getLast? <;> rfl

/-- Until a bundle ends it is in force, or the newest that was accepted after it is, or has ended
itself. -/
theorem governs_after {s : Held rt} {bundle : WireBundle} (hbundle : s.store.bundle = some bundle)
    (later : List Delivery) {t : DateTime} (ht : t.us < bundle.notAfter.us) :
    let s' := Run.run Held.deliver s later
    s'.accepted = s.accepted ∧ s'.store.current t = (bundle, false) ∨
    ∃ since newest, s'.accepted = s.accepted ++ since ++ [newest] ∧
      (s'.store.current t = (newest.2, false) ∨
        newest.2.notAfter.us ≤ t.us ∧ s'.store.current t = (s.store.floor, true)) := by
  intro s'
  obtain ⟨since, haccepted, hlast, hfloor⟩ := held_run s later
  rcases List.eq_nil_or_concat since with rfl | ⟨earlier, newest, rfl⟩
  · refine .inl ⟨by rw [haccepted, List.append_nil], ?_⟩
    exact BundleStore.current_not_degraded.mpr ⟨hlast.trans hbundle, ht⟩
  · have hnewest : s'.store.bundle = some newest.2 := by
      rw [hlast, List.concat_eq_append, List.getLast?_concat]
      rfl
    refine .inr ⟨earlier, newest, by rw [haccepted, List.concat_eq_append, List.append_assoc], ?_⟩
    rcases le_or_gt newest.2.notAfter.us t.us with hended | hvalid
    · refine .inr ⟨hended, BundleStore.current_degraded.mpr ⟨hfloor.symm, ?_⟩⟩
      intro b hb
      rw [Option.some.inj (hb.symm.trans hnewest)]
      exact hended
    · exact .inl (BundleStore.current_not_degraded.mpr ⟨hnewest, hvalid⟩)

end Later

/-! ## The two ends -/

/-- A decision that a turn takes under a bundle in force ends a time to live after the clock, which
is no later than the bundle does exactly when that sum is no later. Until the bundle ends it is in
force, or the newest that was accepted since is until it ends itself. -/
theorem decision_lifetime {rt : Runtime} {sink : ReadableSink} {s : Held rt} {a : Agent rt sink}
    (hstore : a.store = s.store) {env : Environment} {siteId : String}
    {now : DateTime} {bundle : WireBundle} (hcurrent : a.store.current now = (bundle, false))
    {decision : EligibilityDecision}
    (hdecided : (authorise env siteId now a).1 = .ok decision) :
    (∃ us, timedelta bundle.decisionTtlS = .ok us ∧ decision.validUntil.us = now.us + us ∧
      (decision.validUntil.us ≤ bundle.notAfter.us ↔ now.us + us ≤ bundle.notAfter.us)) ∧
    ∀ (later : List Delivery) (t : DateTime), t.us < bundle.notAfter.us →
      let s' := Run.run Held.deliver s later
      s'.accepted = s.accepted ∧ s'.store.current t = (bundle, false) ∨
      ∃ since newest, s'.accepted = s.accepted ++ since ++ [newest] ∧
        (s'.store.current t = (newest.2, false) ∨
          newest.2.notAfter.us ≤ t.us ∧ s'.store.current t = (s.store.floor, true)) := by
  constructor
  · obtain ⟨observations, -, hunder⟩ := authorise_decided hdecided
    rw [hcurrent] at hunder
    obtain ⟨us, hus, hend⟩ := wireValidUntil_ok (validUntil_of_decided hunder)
    exact ⟨us, hus, hend, by rw [hend]⟩
  · intro later t ht
    obtain ⟨hbundle, -⟩ := BundleStore.current_not_degraded.mp (hstore ▸ hcurrent)
    exact governs_after hbundle later ht

namespace Sample

/-- A site that was delivered the sample bundle, and took a decision under it. -/
theorem decides_at (now until' : DateTime) (hnow : now.us < (bundle 1).notAfter.us)
    (hend : until'.us = now.us + 60000000) : ∃ start,
    BundleStore.init (standIn.publicKey signer.key) "authority-1" "site-1" signedFloor none
      (.memory (.int (-1))) none = .ok start ∧
    let s := Run.run Held.deliver ⟨start, .memory (.int (-1)), []⟩ [⟨envelope 1 0, clock 60, {}⟩]
    s.store.floor = start.floor ∧
    ∃ (a : Agent standIn memoryReceiptSink) (decision : EligibilityDecision), a.store = s.store ∧
      a.store.current now = ((bundle 1).toWire, false) ∧
      (authorise (environment (.ok ()) (.error ⟨.OSError, ""⟩)) "site-1" now a).1 = .ok decision ∧
      decision.validUntil = until' := by
  have hread : (EpochStore.memory (.int (-1))).read = .ok (.int (-1)) := rfl
  obtain ⟨floor, hinit⟩ := init_ok hread
  refine ⟨_, hinit, ?_⟩
  rw [Run.run_cons, Run.run_nil, deliver]
  let a : Agent standIn memoryReceiptSink :=
    { agent with store := ⟨standIn.publicKey signer.key, "authority-1", "site-1", floor,
      some (bundle 1).toWire, .int 1, [.bytes (List.replicate 16 0)]⟩ }
  have hcurrent : a.store.current now = ((bundle 1).toWire, false) :=
    BundleStore.current_not_degraded.mpr ⟨rfl, hnow⟩
  have huntil : validUntil (bundle 1) now = .ok until' :=
    bind_eq_ok_iff.mpr ⟨60000000, rfl, DateTime.ofUs_eq_ok.mpr hend⟩
  obtain ⟨decision, hdecide⟩ : ∃ decision, decide standIn (bundle 1) ⟨[upAt "fiber0" 0]⟩ now "site-1"
      false = .ok decision := decide_returns huntil
  have hunder : decideUnder standIn (environment (.ok ()) (.error ⟨.OSError, ""⟩)) (bundle 1).toWire
      ⟨[upAt "fiber0" 0]⟩ now "site-1" false = .ok decision := decideUnder_toWire.trans hdecide
  obtain ⟨a', -, hreached, -⟩ := authorise_returns lawful_standIn lawful_memorySink
    accepting_memorySink (⟨rfl, rfl, rfl⟩ : Ready _ a.chain [] a) ⟨.int 1, rfl⟩ hcurrent rfl hunder
  refine ⟨rfl, a, decision, rfl, hcurrent, congrArg Prod.fst hreached, ?_⟩
  exact Except.ok.inj ((decide_ok hdecide).2.2.1.symm.trans huntil)

end Sample

/-- Half a minute before its bundle ends a site takes a decision that is valid for a minute, and in
the second half of it the floor governs. -/
theorem decision_outlives_policy : ∃ start,
    BundleStore.init (standIn.publicKey Sample.signer.key) "authority-1" "site-1" Sample.signedFloor
      none (.memory (.int (-1))) none = .ok start ∧
    let s := Run.run Held.deliver ⟨start, .memory (.int (-1)), []⟩
      [⟨Sample.envelope 1 0, Sample.clock 60, {}⟩]
    ∃ (a : Agent standIn memoryReceiptSink) (decision : EligibilityDecision), a.store = s.store ∧
      a.store.current (Sample.clock 21570) = ((Sample.bundle 1).toWire, false) ∧
      (authorise (Sample.environment (.ok ()) (.error ⟨.OSError, ""⟩)) "site-1"
        (Sample.clock 21570) a).1 = .ok decision ∧
      (Sample.bundle 1).notAfter.us < decision.validUntil.us ∧
      (Sample.clock 21600).us < decision.validUntil.us ∧
      a.store.current (Sample.clock 21600) = (start.floor, true) := by
  obtain ⟨start, hinit, hfloor, a, decision, hstore, hcurrent, hdecided, huntil⟩ :=
    Sample.decides_at (Sample.clock 21570) (Sample.clock 21630) (by decide) rfl
  refine ⟨start, hinit, a, decision, hstore, hcurrent, hdecided, by rw [huntil]; decide,
    by rw [huntil]; decide, ?_⟩
  obtain ⟨hbundle, -⟩ := BundleStore.current_not_degraded.mp hcurrent
  refine BundleStore.current_degraded.mpr ⟨(hstore ▸ hfloor).symm, ?_⟩
  intro b hb
  rw [← Option.some.inj (hbundle.symm.trans hb)]
  decide

/-- A decision of the sample site, early in the life of its bundle. -/
theorem decision_lifetime_sample : ∃ (s : Held standIn) (a : Agent standIn memoryReceiptSink)
    (decision : EligibilityDecision), a.store = s.store ∧
    (authorise (Sample.environment (.ok ()) (.error ⟨.OSError, ""⟩)) "site-1" (Sample.clock 120)
      a).1 = .ok decision ∧
    ∃ us, timedelta (Sample.bundle 1).toWire.decisionTtlS = .ok us ∧
      decision.validUntil.us = (Sample.clock 120).us + us ∧
      (decision.validUntil.us ≤ (Sample.bundle 1).toWire.notAfter.us ↔
        (Sample.clock 120).us + us ≤ (Sample.bundle 1).toWire.notAfter.us) := by
  obtain ⟨start, -, -, a, decision, hstore, hcurrent, hdecided, -⟩ :=
    Sample.decides_at (Sample.clock 120) (Sample.clock 180) (by decide) rfl
  exact ⟨_, a, decision, hstore, hdecided,
    (decision_lifetime hstore hcurrent hdecided).1⟩

end Pilotfish
