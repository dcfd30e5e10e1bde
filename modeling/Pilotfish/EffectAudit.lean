import Pilotfish.Cycle
import Pilotfish.EvidenceOrder
import Pilotfish.Restarts

/-!
# Whether the effect is on record

An attempt on the dataplane should leave a record of its effect whatever happens, and a turn
that returns should mean that the dataplane holds nothing else than what was decided. The
read-back is not guarded, and what is read back is checked for the classes of the decision only.

Results:
1. `effect_recorded_iff`: an attempt is recorded to its end exactly when it was answered.
2. `contained_iff`: after a turn that returned the dataplane holds what was decided exactly when
   it holds nothing for classes the decision does not name.
-/

namespace Pilotfish
open Python

/-! ## The record of an attempt -/

section Recorded
variable {rt : Runtime} {sink : ReadableSink} {holds : sink.State → List Bytes → Prop}
  {a a' : Agent rt sink} {log : List Bytes} {env : Environment} {siteId : String} {now : DateTime}
  {decision : EligibilityDecision}

/-- Decision, execution and effect were appended to a log, and nothing else. -/
def FullyRecorded (holds : sink.State → List Bytes → Prop) (a b : Agent rt sink) (log : List Bytes)
    (now : DateTime) (decision : EligibilityDecision) : Prop :=
  ∃ log', holds b.log log' ∧
    Recorded a.chain now decision [kindDecision, kindExecution, kindEffect] log log'

/-- An attempt that was not answered has two receipts. -/
theorem not_fullyRecorded (laws : rt.Lawful) (lawful : sink.Lawful holds) (hlog : holds a.log log)
    (hreached : authorise env siteId now a = (.ok decision, a'))
    (hunanswered : ¬Answered rt env decision) :
    ¬FullyRecorded holds a (runOnce env siteId now a).2 log now decision := by
  rintro ⟨log', hheld, hrecorded⟩
  obtain ⟨log₂, h₂, -, hrecorded₂⟩ := authorise_ok laws lawful ⟨hlog, rfl, rfl⟩ hreached
  rw [runOnce_of_authorise hreached] at hheld
  obtain rfl : log' = log₂ := lawful.unique hheld (enforce_unanswered laws lawful h₂ hunanswered).held
  have hlength := hrecorded.length.symm.trans hrecorded₂.length
  simp at hlength

/-- Every attempt whose application raises, or whose read-back can be hashed and checked, leaves
its three receipts; no other does. -/
theorem effect_recorded_iff (laws : rt.Lawful) (lawful : sink.Lawful holds)
    (accepting : sink.Accepting holds) (hlog : holds a.log log)
    (hreached : authorise env siteId now a = (.ok decision, a')) :
    FullyRecorded holds a (runOnce env siteId now a).2 log now decision ↔
    Answered rt env decision := by
  constructor
  · intro hrecorded
    by_contra hunanswered
    exact not_fullyRecorded laws lawful hlog hreached hunanswered hrecorded
  · intro hanswered
    obtain ⟨log₂, h₂, hcounts, hrecorded⟩ := authorise_ok laws lawful ⟨hlog, rfl, rfl⟩ hreached
    obtain ⟨log₃, h₃, heffect⟩ := enforce_answered laws lawful accepting h₂ hcounts hanswered
    rw [runOnce_of_authorise hreached]
    exact ⟨log₃, h₃.held, hrecorded.append ⟨rfl, rfl⟩ heffect⟩

end Recorded

/-! ## What the dataplane holds -/

/-- Every class the dataplane reports holds what the decision permits it, and no class that is
permitted something holds nothing. -/
def Contained (actual : Mapping) (decision : EligibilityDecision) : Prop :=
  (∀ id value, (Value.str id, value) ∈ actual.items → ∃ held, value.iter = .ok held ∧
    ∀ link ∈ held, ∃ p ∈ decision.permittedFor id, link = .str p) ∧
  ∀ cls ∈ decision.classes, cls.permitted ≠ [] → inForce actual cls.classId ≠ .ok []

/-- The classes the decision does not name hold nothing. -/
def NothingLeft (actual : Mapping) (decision : EligibilityDecision) : Prop :=
  ∀ id value, (Value.str id, value) ∈ actual.items → (∀ cls ∈ decision.classes, cls.classId ≠ id) →
    value.iter = .ok []

theorem permittedFor_of_unnamed {decision : EligibilityDecision} {id : String}
    (h : ∀ cls ∈ decision.classes, cls.classId ≠ id) : decision.permittedFor id = [] := by
  rw [EligibilityDecision.permittedFor, List.find?_eq_none.mpr (by simpa using h)]

/-- Classes that conform hold what they are permitted; the rest is what is left. -/
theorem contained_of_conforms {actual : Mapping} {decision : EligibilityDecision}
    (hconforms : ∀ cls ∈ decision.classes, Conforms actual cls) :
    Contained actual decision ↔ NothingLeft actual decision := by
  constructor
  · rintro ⟨hheld, -⟩ id value hmem hunnamed
    obtain ⟨held, hiter, hpermitted⟩ := hheld id value hmem
    rw [permittedFor_of_unnamed hunnamed] at hpermitted
    have hnone : held = [] := List.eq_nil_iff_forall_not_mem.mpr fun link hlink => by
      obtain ⟨p, hp, -⟩ := hpermitted link hlink
      cases hp
    rw [hiter, hnone]
  · intro hnothing
    refine ⟨fun id value hmem => ?_, fun cls hcls hpermitted hempty => ?_⟩
    · cases hfind : decision.classes.find? (·.classId = id) with
      | none =>
        refine ⟨[], hnothing id value hmem ?_, by simp⟩
        simpa using List.find?_eq_none.mp hfind
      | some cls =>
        obtain rfl : cls.classId = id := by simpa using List.find?_some hfind
        obtain ⟨held, hheld, hpermitted, -⟩ := hconforms cls (List.mem_of_find?_eq_some hfind)
        refine ⟨held, inForce_of_mem hmem ▸ hheld, ?_⟩
        rwa [EligibilityDecision.permittedFor, hfind]
    · obtain ⟨held, hheld, -, hsome⟩ := hconforms cls hcls
      exact hsome hpermitted (Except.ok.inj (hheld.symm.trans hempty))

/-- A turn that returned read back what conforms in the classes of its decision. -/
theorem conforms_of_returned {rt : Runtime} {sink : ReadableSink} {a : Agent rt sink}
    {env : Environment} {siteId : String} {now : DateTime} {decision : EligibilityDecision}
    (hreturned : (runOnce env siteId now a).1 = .ok decision) {actual : Mapping}
    (hreadback : (env.readback decision).result = .ok actual) :
    ∀ cls ∈ decision.classes, Conforms actual cls := by
  obtain ⟨d, a', -, henforce⟩ := Effect.bind_eq_ok_iff.mp
    (Prod.ext hreturned rfl : runOnce env siteId now a = (.ok decision, _))
  obtain ⟨rfl, actual', hreadback', hcomplaint, -⟩ := enforce_ok (congrArg Prod.fst henforce)
  obtain rfl : actual = actual' := Except.ok.inj (hreadback.symm.trans hreadback')
  exact postconditionComplaint_eq_empty.mp hcomplaint

/-- Where a turn returned, the dataplane holds nothing that was not decided exactly when it holds
nothing for the classes that were not. -/
theorem contained_iff {rt : Runtime} {sink : ReadableSink} {a : Agent rt sink}
    {env : Environment} {siteId : String} {now : DateTime} {decision : EligibilityDecision}
    (hreturned : (runOnce env siteId now a).1 = .ok decision) {actual : Mapping}
    (hreadback : (env.readback decision).result = .ok actual) :
    Contained actual decision ↔ NothingLeft actual decision :=
  contained_of_conforms (conforms_of_returned hreturned hreadback)

/-! ## At a site -/

namespace Sample

/-- Nothing was written, and the sample bundle governs. -/
def agent : Agent standIn memoryReceiptSink where
  store := ⟨standIn.publicKey signer.key, "authority-1", "site-1", (bundle 0).toWire,
    some (bundle 1).toWire, .int 1, []⟩
  epochs := .memory (.int 1)
  chain := .new "site-1" siteKey
  log := ([] : List Bytes)

/-- The probe reports a link, and the dataplane answers as given. -/
def environment (applied : Except Exc Unit) (readback : Except Exc Mapping) : Environment where
  observe := ⟨.ok [upAt "fiber0" 0], []⟩
  apply := fun _ => ⟨applied, []⟩
  readback := fun _ => ⟨readback, []⟩
  undeclared := fun _ _ _ => .error ⟨.TypeError, ""⟩

/-- What is decided there permits the link to the one class. -/
theorem agent_decides : ∃ decision,
    decide standIn (bundle 1) ⟨[upAt "fiber0" 0]⟩ (clock 60) "site-1" false = .ok decision ∧
    decision.classes.map (fun cls => (cls.classId, cls.permitted)) = [("bulk", ["fiber0"])] := by
  have huntil : validUntil (bundle 1) (clock 60) = .ok (clock 120) :=
    validUntil_minute rfl
  rw [decide_eq, huntil, asOf_noon _ (by simp [upAt])]
  exact ⟨_, rfl, by decide +kernel⟩

theorem agent_authorises (applied : Except Exc Unit) (readback : Except Exc Mapping) :
    ∃ decision a', authorise (environment applied readback) "site-1" (clock 60) agent =
        (.ok decision, a') ∧
      decision.classes.map (fun cls => (cls.classId, cls.permitted)) = [("bulk", ["fiber0"])] := by
  obtain ⟨decision, hdecide, hclasses⟩ := agent_decides
  have hcurrent : agent.store.current (clock 60) = ((bundle 1).toWire, false) :=
    BundleStore.current_not_degraded.mpr ⟨rfl, by decide⟩
  have hunder : decideUnder standIn (environment applied readback) (bundle 1).toWire
      ⟨[upAt "fiber0" 0]⟩ (clock 60) "site-1" false = .ok decision :=
    decideUnder_toWire.trans hdecide
  have hready : Ready _ agent.chain [] agent := ⟨rfl, rfl, rfl⟩
  obtain ⟨a', log', hreached, -, -⟩ := authorise_returns lawful_standIn lawful_memorySink
    accepting_memorySink hready ⟨.int 1, rfl⟩ hcurrent rfl hunder
  exact ⟨decision, a', hreached, hclasses⟩

/-- Where the dataplane reports that, the turn returns. -/
theorem agent_returns (rows : List (String × List String)) (h : (rows.map Prod.fst).Nodup)
    (hbulk : ("bulk", ["fiber0"]) ∈ rows) : ∃ decision,
    (runOnce (environment (.ok ()) (.ok (.ofRows rows h))) "site-1" (clock 60) agent).1 =
      .ok decision ∧
    decision.classes.map (fun cls => (cls.classId, cls.permitted)) = [("bulk", ["fiber0"])] := by
  obtain ⟨decision, a', hreached, hclasses⟩ := agent_authorises (.ok ()) (.ok (.ofRows rows h))
  obtain ⟨log', h₂, hcounts, -⟩ := authorise_ok lawful_standIn lawful_memorySink
    (⟨rfl, rfl, rfl⟩ : Ready _ agent.chain [] agent) hreached
  refine ⟨decision, ?_, hclasses⟩
  rw [runOnce_of_authorise hreached]
  refine enforce_returns lawful_standIn accepting_memorySink h₂ hcounts rfl rfl
    (auditable_declared _ declared_ofRows _) fun cls hcls => conforms_ofRows ?_
  have hpair : (cls.classId, cls.permitted) ∈ [("bulk", ["fiber0"])] :=
    hclasses ▸ List.mem_map_of_mem hcls
  rwa [List.mem_singleton.mp hpair]

end Sample

/-- A dataplane that cannot be read back leaves an attempt without its effect. -/
theorem effect_lost : ∃ decision a',
    let env := Sample.environment (.ok ()) (.error ⟨.OSError, "netlink socket closed"⟩)
    authorise env "site-1" (Sample.clock 60) Sample.agent = (.ok decision, a') ∧
    ¬FullyRecorded (fun lines log => lines = log) Sample.agent
      (runOnce env "site-1" (Sample.clock 60) Sample.agent).2 [] (Sample.clock 60) decision := by
  obtain ⟨decision, a', hreached, -⟩ := Sample.agent_authorises (.ok ())
    (.error ⟨.OSError, "netlink socket closed"⟩)
  refine ⟨decision, a', hreached,
    not_fullyRecorded lawful_standIn lawful_memorySink rfl hreached ?_⟩
  rintro (⟨e, text, ⟨⟩, -⟩ | ⟨-, actual, ⟨⟩, -⟩)

/-- A dataplane that refuses is on record. -/
theorem effect_recorded_iff_sample : ∃ decision a',
    let env := Sample.environment (.error ⟨.OSError, "netlink socket refused the rule"⟩)
      (.ok (Mapping.ofRows []))
    authorise env "site-1" (Sample.clock 60) Sample.agent = (.ok decision, a') ∧
    FullyRecorded (fun lines log => lines = log) Sample.agent
      (runOnce env "site-1" (Sample.clock 60) Sample.agent).2 [] (Sample.clock 60) decision := by
  obtain ⟨decision, a', hreached, -⟩ := Sample.agent_authorises
    (.error ⟨.OSError, "netlink socket refused the rule"⟩) (.ok (Mapping.ofRows []))
  exact ⟨decision, a', hreached, (effect_recorded_iff lawful_standIn lawful_memorySink
    accepting_memorySink rfl hreached).mpr (.inl ⟨_, _, rfl, rfl, ⟨_, rfl⟩⟩)⟩

/-- A class from an earlier bundle keeps its link, and the turn returns. -/
theorem leftover_class_kept : ∃ decision,
    let actual := Mapping.ofRows [("bulk", ["fiber0"]), ("old", ["lte0"])]
    (runOnce (Sample.environment (.ok ()) (.ok actual)) "site-1" (Sample.clock 60) Sample.agent).1 =
      .ok decision ∧ ¬Contained actual decision := by
  obtain ⟨decision, hreturned, hclasses⟩ := Sample.agent_returns
    [("bulk", ["fiber0"]), ("old", ["lte0"])] (by decide) (by simp)
  refine ⟨decision, hreturned, ?_⟩
  intro hcontained
  have hunnamed : ∀ cls ∈ decision.classes, cls.classId ≠ "old" := fun cls hcls => by
    have hpair : (cls.classId, cls.permitted) ∈ [("bulk", ["fiber0"])] :=
      hclasses ▸ List.mem_map_of_mem hcls
    rw [(Prod.mk.inj (List.mem_singleton.mp hpair)).1]
    decide
  have hconforms := conforms_of_returned hreturned rfl
  have hnothing := (contained_of_conforms hconforms).mp hcontained "old" (.list [.str "lte0"])
    (by simp [Mapping.ofRows]) hunnamed
  cases hnothing

/-- A dataplane that reports the class decided on holds what was decided. -/
theorem contained_iff_sample : ∃ decision,
    let actual := Mapping.ofRows [("bulk", ["fiber0"])]
    (runOnce (Sample.environment (.ok ()) (.ok actual)) "site-1" (Sample.clock 60) Sample.agent).1 =
      .ok decision ∧ Contained actual decision := by
  obtain ⟨decision, hreturned, hclasses⟩ := Sample.agent_returns [("bulk", ["fiber0"])]
    (by decide) (by simp)
  refine ⟨decision, hreturned, (contained_iff hreturned rfl).mpr ?_⟩
  intro id value hmem hunnamed
  obtain ⟨rfl, rfl⟩ : id = "bulk" ∧ value = .list [.str "fiber0"] := by
    simpa [Mapping.ofRows] using hmem
  have hpair : ("bulk", ["fiber0"]) ∈ decision.classes.map fun cls => (cls.classId, cls.permitted) :=
    hclasses ▸ List.mem_singleton_self _
  obtain ⟨cls, hcls, heq⟩ := List.mem_map.mp hpair
  exact absurd (Prod.mk.inj heq).1 (hunnamed cls hcls)

end Pilotfish
