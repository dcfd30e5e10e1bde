import Pilotfish.EvidenceOrder
import Pilotfish.Publication

/-!
# Telemetry on the wire

A site may send the evidence it decided on. Each instant is sent as its second, while the hash,
the horizon, the ages and the choice of the latest measurement read it as it was.

Results:
1. `decodeObservationBatch_encodeObservationBatch`: what arrives of a batch.
2. `stays_iff`: what the rules can tell of two snapshots.
3. `rows_sent_iff`: when the rows that are hashed are the same.
4. `reproduces_iff`: which batches reproduce the decisions that were taken on them.
-/

namespace Pilotfish
open Python EvidenceSnapshot

/-! ## The batch -/

/-- Telemetry. Droppable by design when the uplink is expensive. -/
structure ObservationBatch where
  siteId : String
  observations : List Observation

def ObservationBatch.asSnapshot (batch : ObservationBatch) : EvidenceSnapshot :=
  ⟨batch.observations⟩

def encodeObservation (o : Observation) : Value :=
  .list [.str o.linkId, .str o.quantity, o.value.value, ts o.atTime, .str o.source]

def encodeObservationBatch (rt : Runtime) (batch : ObservationBatch) : Bytes :=
  rt.encoding (.list [.str batch.siteId, .list (batch.observations.map encodeObservation)])

/-- An observation as it is decoded: of its fields only the instant and the value are checked. -/
structure WireObservation where
  linkId : Value
  quantity : Value
  value : Option Num
  atTime : DateTime
  source : Value

structure WireObservationBatch where
  siteId : Value
  observations : List WireObservation

/-- The value is checked last, when the observation is built. -/
def decodeObservation (o : Value) : Except Exc WireObservation := do
  let linkId ← o.getItem 0
  let quantity ← o.getItem 1
  let value ← o.getItem 2
  let atTime ← DateTime.fromtimestamp (← o.getItem 3)
  let source ← o.getItem 4
  return {
    linkId := linkId
    quantity := quantity
    value := ← requireFinite "Observation.value" value
    atTime := atTime
    source := source }

def decodeObservationBatch (rt : Runtime) (payload : Value) : Except Exc WireObservationBatch := do
  let f ← rt.loadsValue payload
  return {
    siteId := ← f.getItem 0
    observations := ← tupleOf decodeObservation (← f.getItem 1) }

def Observation.toWire (o : Observation) : WireObservation :=
  ⟨.str o.linkId, .str o.quantity, some o.value, o.atTime, .str o.source⟩

def ObservationBatch.toWire (batch : ObservationBatch) : WireObservationBatch :=
  ⟨.str batch.siteId, batch.observations.map Observation.toWire⟩

section Declared
open OnWire (ofValue?)

def Observation.declared? (w : WireObservation) : Option Observation := do
  return {
    linkId := ← ofValue? w.linkId
    quantity := ← ofValue? w.quantity
    value := ← w.value
    atTime := w.atTime
    source := ← ofValue? w.source }

/-- The batch of declared types that a decoded one is, if it is one. -/
def ObservationBatch.declared? (w : WireObservationBatch) : Option ObservationBatch := do
  return {
    siteId := ← ofValue? w.siteId
    observations := ← w.observations.mapM Observation.declared? }

end Declared

theorem ObservationBatch.declared?_toWire (batch : ObservationBatch) :
    declared? batch.toWire = some batch := by
  have hobservation (o : Observation) : Observation.declared? o.toWire = some o := rfl
  simp only [declared?, toWire, mapM_map_some hobservation]
  rfl

/-! ## What arrives -/

/-- An observation with its instant cut to the second. -/
def Observation.cut (o : Observation) : Except Exc Observation := do
  return { o with atTime := ← o.atTime.cut }

def ObservationBatch.cut (batch : ObservationBatch) : Except Exc ObservationBatch := do
  return { batch with observations := ← batch.observations.mapM Observation.cut }

theorem decodeObservation_encodeObservation (o : Observation) :
    decodeObservation (encodeObservation o) = o.cut.map Observation.toWire := by
  show (do
    let atTime ← o.atTime.cut
    return (⟨.str o.linkId, .str o.quantity, ← requireFinite "Observation.value" o.value.value, atTime,
      .str o.source⟩ : WireObservation) : Except Exc WireObservation) = _
  rw [requireFinite_some, Observation.cut]
  cases o.atTime.cut <;> rfl

theorem decodeObservationBatch_encodeObservationBatch {rt : Runtime} (laws : rt.Lawful)
    (batch : ObservationBatch) :
    decodeObservationBatch rt (.bytes (encodeObservationBatch rt batch)) =
      batch.cut.map ObservationBatch.toWire := by
  have hplain : (Value.list [.str batch.siteId,
      .list (batch.observations.map encodeObservation)]).plain = true := by
    have hvalue (x : Num) : x.value.plain = true := Value.plain_of_isfinite x.finite
    simp [encodeObservation, hvalue]
  rw [decodeObservationBatch, Runtime.loadsValue, encodeObservationBatch, laws.loads_dumps _ hplain]
  show (do
    let observations ← (batch.observations.map encodeObservation).mapM decodeObservation
    return (⟨.str batch.siteId, observations⟩ : WireObservationBatch)) = _
  rw [mapM_map_eq decodeObservation_encodeObservation, ObservationBatch.cut]
  cases batch.observations.mapM Observation.cut <;> rfl

/-! ## What the rules can tell -/

/-- The latest measurements of two snapshots agree as far as a bound can tell: on being up, in
latency and quota, and in age. -/
structure Agree (e e' : EvidenceSnapshot) (now : DateTime) : Prop where
  measured : ∀ linkId quantity, e.latest linkId quantity = none ↔ e'.latest linkId quantity = none
  up : ∀ linkId o p, e.latest linkId "up" = some o → e'.latest linkId "up" = some p →
    (1 ≤ o.value.toRat ↔ 1 ≤ p.value.toRat)
  rtt : ∀ linkId o p, e.latest linkId "rtt_ms" = some o → e'.latest linkId "rtt_ms" = some p →
    o.value.toRat = p.value.toRat
  quota : ∀ linkId o p, e.latest linkId "quota_used_pct" = some o →
    e'.latest linkId "quota_used_pct" = some p → o.value.toRat = p.value.toRat
  age : ∀ linkId quantity o p, e.latest linkId quantity = some o →
    e'.latest linkId quantity = some p → o.ageS now = p.ageS now

section Rules
variable {e e' : EvidenceSnapshot} {now : DateTime}

/-- A condition on the latest measurement that agreeing measurements share. -/
theorem exists_latest_iff {linkId quantity : String} {P Q : Observation → Prop}
    (hmeasured : e.latest linkId quantity = none ↔ e'.latest linkId quantity = none)
    (h : ∀ o p, e.latest linkId quantity = some o → e'.latest linkId quantity = some p → (P o ↔ Q p)) :
    (∃ o, e.latest linkId quantity = some o ∧ P o) ↔
      ∃ p, e'.latest linkId quantity = some p ∧ Q p := by
  cases he : e.latest linkId quantity with
  | none => simp [hmeasured.mp he]
  | some o =>
    cases he' : e'.latest linkId quantity with
    | none =>
      rw [hmeasured.mpr he'] at he
      cases he
    | some p => simpa using h o p he he'

theorem Agree.stays (h : Agree e e' now) (rule : Rule) (l : Link) (c : TrafficClass) :
    rule.evaluate l c e now = none ↔ rule.evaluate l c e' now = none := by
  cases rule with
  | linkDown ruleId =>
    rw [Rule.evaluate_linkDown, Rule.evaluate_linkDown]
    exact exists_latest_iff (h.measured _ _) (h.up l.id)
  | maxRtt ruleId classId =>
    by_cases hid : c.id = classId
    · subst hid
      rw [Rule.evaluate_maxRtt, Rule.evaluate_maxRtt]
      refine forall₂_congr ?_
      intro bound _
      refine exists_latest_iff (h.measured _ _) ?_
      intro o p ho hp
      rw [h.rtt l.id o p ho hp]
    · rw [(Rule.evaluate_other_class hid).1, (Rule.evaluate_other_class hid).1]
  | quota ruleId type thresholdPct =>
    by_cases htype : l.type = type
    · subst htype
      rw [Rule.evaluate_quota, Rule.evaluate_quota]
      refine exists_latest_iff (h.measured _ _) ?_
      intro o p ho hp
      rw [h.quota l.id o p ho hp]
    · simp only [Rule.evaluate, ne_eq, htype, not_false_eq_true, if_true]
  | evidenceFreshness ruleId type quantity maxAgeS =>
    by_cases htype : l.type = type
    · subst htype
      rw [Rule.evaluate_evidenceFreshness, Rule.evaluate_evidenceFreshness]
      refine exists_latest_iff (h.measured _ _) ?_
      intro o p ho hp
      rw [h.age l.id quantity o p ho hp]
    · simp only [Rule.evaluate, ne_eq, htype, not_false_eq_true, if_true]
  | metered ruleId classId => rfl
  | jurisdiction ruleId classId => rfl
  | encryption ruleId classId => rfl
  | linkType ruleId type reasonText => rfl
  | directive ruleId linkId reasonText notAfter => rfl

/-- A link of no type. -/
def bareLink (linkId : String) : Link := ⟨linkId, "", false, false, [], ""⟩

/-- A class that declares nothing, or a latency. -/
def bareClass (maxRttMs : Option ℚ) : TrafficClass :=
  { TrafficClass.ofId "" with maxRttMs := maxRttMs.map Num.ofRat }

section Stays
variable (h : ∀ (rule : Rule) (l : Link) (c : TrafficClass),
  rule.evaluate l c e now = none ↔ rule.evaluate l c e' now = none)
include h

theorem freshness_of_stays (linkId quantity : String) (bound : ℚ) :
    (∃ o, e.latest linkId quantity = some o ∧ o.ageS now ≤ bound) ↔
      ∃ p, e'.latest linkId quantity = some p ∧ p.ageS now ≤ bound := by
  have hrule := h (.evidenceFreshness "" (bareLink linkId).type quantity (.ofRat bound))
    (bareLink linkId) (bareClass none)
  rw [Rule.evaluate_evidenceFreshness, Rule.evaluate_evidenceFreshness] at hrule
  exact hrule

theorem rtt_of_stays (linkId : String) (bound : ℚ) :
    (∃ o, e.latest linkId "rtt_ms" = some o ∧ o.value.toRat ≤ bound) ↔
      ∃ p, e'.latest linkId "rtt_ms" = some p ∧ p.value.toRat ≤ bound := by
  have hrule := h (.maxRtt "" (bareClass (some bound)).id) (bareLink linkId)
    (bareClass (some bound))
  rw [Rule.evaluate_maxRtt, Rule.evaluate_maxRtt] at hrule
  simpa [bareClass, bareLink] using hrule

theorem quota_of_stays (linkId : String) (bound : ℚ) :
    (∃ o, e.latest linkId "quota_used_pct" = some o ∧ o.value.toRat < bound) ↔
      ∃ p, e'.latest linkId "quota_used_pct" = some p ∧ p.value.toRat < bound := by
  have hrule := h (.quota "" (bareLink linkId).type (.ofRat bound)) (bareLink linkId)
    (bareClass none)
  rw [Rule.evaluate_quota, Rule.evaluate_quota] at hrule
  exact hrule

/-- A freshness rule excludes what was never measured, whatever its bound. -/
theorem measured_of_stays (linkId quantity : String) :
    e.latest linkId quantity = none ↔ e'.latest linkId quantity = none := by
  rw [Option.eq_none_iff_forall_ne_some, Option.eq_none_iff_forall_ne_some]
  constructor
  · intro hnone p hp
    obtain ⟨o, ho, -⟩ := (freshness_of_stays h linkId quantity (p.ageS now)).mpr ⟨p, hp, le_rfl⟩
    exact hnone o ho
  · intro hnone o ho
    obtain ⟨p, hp, -⟩ := (freshness_of_stays h linkId quantity (o.ageS now)).mp ⟨o, ho, le_rfl⟩
    exact hnone p hp

/-- Rules with a bound between two measurements tell them apart. -/
theorem Agree.of_stays : Agree e e' now := by
  refine ⟨measured_of_stays h, ?_, ?_, ?_, ?_⟩
  · intro linkId o p ho hp
    have hrule := h (.linkDown "") (bareLink linkId) (bareClass none)
    rw [Rule.evaluate_linkDown, Rule.evaluate_linkDown] at hrule
    simpa [bareLink, ho, hp] using hrule
  · intro linkId o p ho hp
    refine eq_of_forall_ge_iff ?_
    intro bound
    simpa [ho, hp] using rtt_of_stays h linkId bound
  · intro linkId o p ho hp
    refine eq_of_forall_gt_iff ?_
    intro bound
    simpa [ho, hp] using quota_of_stays h linkId bound
  · intro linkId quantity o p ho hp
    refine eq_of_forall_ge_iff ?_
    intro bound
    simpa [ho, hp] using freshness_of_stays h linkId quantity bound

end Stays

/-- No rule tells two snapshots apart exactly when their latest measurements agree. -/
theorem stays_iff : (∀ (rule : Rule) (l : Link) (c : TrafficClass),
    rule.evaluate l c e now = none ↔ rule.evaluate l c e' now = none) ↔ Agree e e' now :=
  ⟨Agree.of_stays, Agree.stays⟩

end Rules

/-! ## What a verifier recomputes -/

/-- The hash of the evidence, and the links permitted to each class. -/
def EligibilityDecision.verdict (decision : EligibilityDecision) :
    String × List (String × List String) :=
  (decision.evidenceHash, decision.classes.map fun cls => (cls.classId, cls.permitted))

/-- Decisions on one snapshot and on another do not differ in that. -/
def SameVerdicts (rt : Runtime) (e e' : EvidenceSnapshot) (now : DateTime) : Prop :=
  ∀ (bundle : PolicyBundle) (siteId : String) (degraded : Bool),
    (decide rt bundle e' now siteId degraded).map EligibilityDecision.verdict =
      (decide rt bundle e now siteId degraded).map EligibilityDecision.verdict

section Verdicts
variable {rt : Runtime} {e e' : EvidenceSnapshot} {now : DateTime}

theorem permitted_single (rule : Rule) (evidence : EvidenceSnapshot) (now : DateTime) (l : Link)
    (c : TrafficClass) : (eligibility [rule] evidence now [l] c).permitted = [l.id] ↔
      rule.evaluate l c evidence now = none := by
  have hadmits : admits [rule] evidence now c l = true ↔ _ := admits_iff
  rw [List.forall_mem_singleton] at hadmits
  rw [← hadmits]
  cases h : admits [rule] evidence now c l <;> simp [eligibility, sortedLinks, h]

theorem sameVerdicts_iff : SameVerdicts rt e e' now ↔
    (e'.asOf now).hash rt = (e.asOf now).hash rt ∧ Agree (e.asOf now) (e'.asOf now) now := by
  rw [← stays_iff]
  constructor
  · intro h
    have hsingle (rule : Rule) (l : Link) (c : TrafficClass) :
        (e'.asOf now).hash rt = (e.asOf now).hash rt ∧
          (eligibility [rule] (e'.asOf now) now [l] c).permitted =
            (eligibility [rule] (e.asOf now) now [l] c).permitted := by
      obtain ⟨d, hd, hhash, hclasses⟩ := decide_single rt e now l c rule
      obtain ⟨d', hd', hhash', hclasses'⟩ := decide_single rt e' now l c rule
      have hverdict := h (single now l c rule) "" false
      rw [hd, hd'] at hverdict
      have hpair := Prod.mk.inj (Except.ok.inj hverdict)
      rw [hhash, hhash', hclasses, hclasses'] at hpair
      simp only [List.map_cons, List.map_nil, List.cons.injEq, Prod.mk.injEq, and_true] at hpair
      exact ⟨hpair.1, hpair.2.2⟩
    refine ⟨(hsingle (.linkDown "") (bareLink "") (bareClass none)).1, ?_⟩
    intro rule l c
    rw [← permitted_single, ← permitted_single, (hsingle rule l c).2]
  · rintro ⟨hhash, hstays⟩ bundle siteId degraded
    have hadmits (c : TrafficClass) : admits bundle.rules (e'.asOf now) now c =
        admits bundle.rules (e.asOf now) now c := by
      funext l
      rw [Bool.eq_iff_iff, admits_iff, admits_iff]
      exact forall₂_congr fun rule _ => (hstays rule l c).symm
    rw [decide_eq, decide_eq]
    cases validUntil bundle now with
    | error e => rfl
    | ok until' =>
      simp only [Except.map, EligibilityDecision.verdict, hhash, List.map_map, Function.comp_def,
        eligibility, hadmits]

end Verdicts

/-! ## The rows that are hashed -/

section Rows
variable {o c : Observation} {os cs : List Observation} {now : DateTime}

theorem Observation.cut_eq_ok_iff : o.cut = .ok c ↔
    ∃ t, o.atTime.cut = .ok t ∧ c = { o with atTime := t } := by
  simp only [cut, bind_eq_ok_iff]
  refine exists_congr ?_
  intro t
  refine and_congr_right ?_
  intro _
  constructor
  · intro h
    cases h
    rfl
  · rintro rfl
    rfl

/-- An observation that arrives is dated to the second. -/
theorem Observation.timestamp_cut (h : o.cut = .ok c) :
    c.atTime.timestamp = (o.atTime.seconds : ℚ) := by
  obtain ⟨t, ht, rfl⟩ := cut_eq_ok_iff.mp h
  exact DateTime.timestamp_of_whole (DateTime.fromtimestamp_int.mp ht)

/-- Where the stamp is a whole second, its row is the same. -/
theorem Observation.row_cut (h : o.cut = .ok c)
    (hwhole : o.atTime.timestamp = (o.atTime.seconds : ℚ)) :
    row c = row o ∧ rowKey c = rowKey o := by
  have hstamp := timestamp_cut h
  rw [← hwhole] at hstamp
  obtain ⟨t, -, rfl⟩ := cut_eq_ok_iff.mp h
  constructor
  · rw [row, row, hstamp]
  · rw [rowKey, rowKey, hstamp]

/-- Every measurement that is within the horizon, as it was taken or as it is sent, has a stamp
that is a whole second. -/
def WholeInView (evidence : EvidenceSnapshot) (now : DateTime) : Prop :=
  ∀ o ∈ evidence.observations,
    o.atTime.timestamp ≤ horizon now ∨ (o.atTime.seconds : ℚ) ≤ horizon now →
      o.atTime.timestamp = (o.atTime.seconds : ℚ)

/-- Then the same measurements are kept, each under its row. -/
theorem forall₂_kept (h : List.Forall₂ (fun o c => Observation.cut o = .ok c) os cs)
    (hwhole : WholeInView ⟨os⟩ now) :
    List.Forall₂ (fun o c => row c = row o ∧ rowKey c = rowKey o)
      ((EvidenceSnapshot.mk os).asOf now).observations
      ((EvidenceSnapshot.mk cs).asOf now).observations := by
  induction h with
  | nil => exact .nil
  | @cons o c os cs hcut _ ih =>
    obtain ⟨hfirst, hrest⟩ := List.forall_mem_cons.mp hwhole
    have hkept := ih hrest
    have hstamp := Observation.timestamp_cut hcut
    unfold asOf at hkept ⊢
    by_cases hclock : o.atTime.timestamp ≤ horizon now
    · have hsecond := hfirst (.inl hclock)
      rw [List.filter_cons_of_pos (by simpa using hclock),
        List.filter_cons_of_pos (by simpa [hstamp, ← hsecond] using hclock)]
      exact .cons (Observation.row_cut hcut hsecond) hkept
    · have hdropped : ¬c.atTime.timestamp ≤ horizon now := by
        intro hsecond
        rw [hstamp] at hsecond
        exact hclock (hfirst (.inr hsecond) ▸ hsecond)
      rw [List.filter_cons_of_neg (by simpa using hclock),
        List.filter_cons_of_neg (by simpa using hdropped)]
      exact hkept

theorem rows_sent (h : List.Forall₂ (fun o c => Observation.cut o = .ok c) os cs)
    (hwhole : WholeInView ⟨os⟩ now) :
    ((EvidenceSnapshot.mk cs).asOf now).rows = ((EvidenceSnapshot.mk os).asOf now).rows := by
  refine Ties.map_insertionSort_congr rowKey row ?_
  have hkept := forall₂_kept h hwhole
  generalize ((EvidenceSnapshot.mk os).asOf now).observations = kept at hkept ⊢
  generalize ((EvidenceSnapshot.mk cs).asOf now).observations = kept' at hkept ⊢
  induction hkept with
  | nil => rfl
  | cons hrow _ ih => rw [List.map_cons, List.map_cons, hrow.1, hrow.2, ih]

/-- Where what was kept has whole stamps, as much is kept of what arrives; more, if something that
was ahead of the horizon is not when it is cut. -/
theorem wholeInView_of_length (h : List.Forall₂ (fun o c => Observation.cut o = .ok c) os cs)
    (hkept : ∀ o ∈ os, o.atTime.timestamp ≤ horizon now →
      o.atTime.timestamp = (o.atTime.seconds : ℚ)) :
    let kept := ((EvidenceSnapshot.mk os).asOf now).observations
    let kept' := ((EvidenceSnapshot.mk cs).asOf now).observations
    kept.length ≤ kept'.length ∧ (kept'.length ≤ kept.length → WholeInView ⟨os⟩ now) := by
  intro kept kept'
  induction h with
  | nil => exact ⟨le_rfl, fun _ o ho => by cases ho⟩
  | @cons o c os cs hcut _ ih =>
    obtain ⟨hfirst, hrest⟩ := List.forall_mem_cons.mp hkept
    obtain ⟨hle, hview⟩ := ih hrest
    have hstamp := Observation.timestamp_cut hcut
    unfold WholeInView
    rw [List.forall_mem_cons]
    simp only [kept, kept', asOf] at hle hview ⊢
    by_cases hclock : o.atTime.timestamp ≤ horizon now
    · have hsecond := hfirst hclock
      rw [List.filter_cons_of_pos (by simpa using hclock),
        List.filter_cons_of_pos (by simpa [hstamp, ← hsecond] using hclock), List.length_cons,
        List.length_cons]
      exact ⟨by omega, fun hlength => ⟨fun _ => hsecond, hview (by omega)⟩⟩
    · rw [List.filter_cons_of_neg (by simpa using hclock)]
      by_cases harrived : (o.atTime.seconds : ℚ) ≤ horizon now
      · rw [List.filter_cons_of_pos (by simpa [hstamp] using harrived), List.length_cons]
        exact ⟨by omega, fun hlength => absurd hlength (by omega)⟩
      · rw [List.filter_cons_of_neg (by simpa [hstamp] using harrived)]
        refine ⟨hle, fun hlength => ⟨?_, hview hlength⟩⟩
        intro hin
        exact absurd hin (not_or.mpr ⟨hclock, harrived⟩)

/-- The rows of what arrives are the rows of what was sent exactly when everything in view has a
stamp that is a whole second. -/
theorem rows_sent_iff (h : List.Forall₂ (fun o c => Observation.cut o = .ok c) os cs) :
    ((EvidenceSnapshot.mk cs).asOf now).rows = ((EvidenceSnapshot.mk os).asOf now).rows ↔
      WholeInView ⟨os⟩ now := by
  refine ⟨?_, rows_sent h⟩
  intro hrows
  have hmem {evidence : EvidenceSnapshot} {v : Value} :
      v ∈ evidence.rows ↔ ∃ o ∈ evidence.observations, row o = v := by
    simp only [rows, List.mem_map, (List.perm_insertionSort _ _).mem_iff]
  have hkept : ∀ o ∈ os, o.atTime.timestamp ≤ horizon now →
      o.atTime.timestamp = (o.atTime.seconds : ℚ) := by
    intro o ho hclock
    have hrow := hmem.mpr ⟨o, asOf_observations.mpr ⟨ho, hclock⟩, rfl⟩
    rw [← hrows] at hrow
    obtain ⟨c, hc, heq⟩ := hmem.mp hrow
    -- the stamp in the row is that of something that arrived, so a whole second
    obtain ⟨n, hn⟩ : ∃ n : Int, c.atTime.timestamp = n := by
      obtain ⟨o', -, hcut⟩ := exists_of_mem_forall₂ h (asOf_observations.mp hc).1
      exact ⟨_, Observation.timestamp_cut hcut⟩
    have hsame : c.atTime.timestamp = o.atTime.timestamp := by
      simp only [row, Value.list.injEq, List.cons.injEq, Value.float.injEq, Double.fin.injEq] at heq
      exact heq.2.2.1
    rw [hn] at hsame
    rw [DateTime.seconds, ← hsame, DateTime.trunc_intCast]
  refine (wholeInView_of_length h hkept).2 ?_
  have hlength := congrArg List.length hrows
  simp only [rows, List.length_map, List.length_insertionSort] at hlength
  exact hlength.le

end Rows

/-! ## Which batches reproduce decisions -/

/-- A verifier that is sent the batch recomputes the hash and the permitted links of every decision
that was taken on it at a clock. -/
def Reproduces (rt : Runtime) (batch : ObservationBatch) (now : DateTime) : Prop :=
  ∃ w received, decodeObservationBatch rt (.bytes (encodeObservationBatch rt batch)) = .ok w ∧
    ObservationBatch.declared? w = some received ∧
    SameVerdicts rt batch.asSnapshot received.asSnapshot now

/-- The batch can be read back, all that is in view has a stamp that is a whole second, and the
latest measurements agree with the latest by second. -/
def SentWhole (batch : ObservationBatch) (now : DateTime) : Prop :=
  ∃ c, batch.cut = .ok c ∧ WholeInView batch.asSnapshot now ∧
    Agree (batch.asSnapshot.asOf now) (c.asSnapshot.asOf now) now

section Batch
variable {rt : Runtime} {batch c : ObservationBatch} {now : DateTime}

theorem ObservationBatch.forall₂_cut (h : batch.cut = .ok c) :
    List.Forall₂ (fun o c => Observation.cut o = .ok c) batch.observations c.observations := by
  obtain ⟨observations, hmap, hret⟩ := bind_eq_ok_iff.mp h
  cases hret
  exact mapM_eq_ok_iff.mp hmap

theorem reproduces_iff_cut (laws : rt.Lawful) : Reproduces rt batch now ↔
    ∃ c, batch.cut = .ok c ∧ SameVerdicts rt batch.asSnapshot c.asSnapshot now := by
  rw [Reproduces, decodeObservationBatch_encodeObservationBatch laws]
  constructor
  · rintro ⟨w, received, hw, hdeclared, hsame⟩
    obtain ⟨c, hc, rfl⟩ := map_eq_ok_iff.mp hw
    rw [ObservationBatch.declared?_toWire] at hdeclared
    cases hdeclared
    exact ⟨received, hc, hsame⟩
  · rintro ⟨c, hc, hsame⟩
    exact ⟨c.toWire, c, map_eq_ok_iff.mpr ⟨c, hc, rfl⟩, ObservationBatch.declared?_toWire c, hsame⟩

/-- A batch reproduces the decisions taken on it exactly when it is whole as it is sent. -/
theorem reproduces_iff (laws : rt.Lawful)
    (free : ∀ c, batch.cut = .ok c → rt.CollisionFree
      [.list (batch.asSnapshot.asOf now).rows, .list (c.asSnapshot.asOf now).rows]) :
    Reproduces rt batch now ↔ SentWhole batch now := by
  rw [reproduces_iff_cut laws]
  refine exists_congr ?_
  intro c
  refine and_congr_right ?_
  intro hc
  rw [sameVerdicts_iff]
  refine and_congr_left' (Iff.trans ?_ (rows_sent_iff (ObservationBatch.forall₂_cut hc)))
  constructor
  · intro hhash
    exact Value.list.inj ((free c hc).digest_injective (List.mem_cons_of_mem _ List.mem_cons_self)
      List.mem_cons_self hhash)
  · intro hrows
    exact congrArg (fun rows => rt.digest (.list rows)) hrows

/-- Whole seconds are. -/
theorem sentWhole_of_whole (now : DateTime)
    (h : ∀ o ∈ batch.observations, ∃ n : Int, o.atTime.us = n * 1000000) :
    batch.cut = .ok batch ∧ SentWhole batch now := by
  have hcut : batch.cut = .ok batch := by
    have hsame (o : Observation) (ho : o ∈ batch.observations) : o.cut = .ok o := by
      obtain ⟨n, hn⟩ := h o ho
      rw [Observation.cut, DateTime.cut_of_whole hn]
      rfl
    have hmap : batch.observations.mapM Observation.cut = .ok batch.observations :=
      mapM_eq_ok_iff.mpr (List.forall₂_same.mpr hsame)
    rw [ObservationBatch.cut, hmap]
    rfl
  refine ⟨hcut, batch, hcut, ?_, stays_iff.mp fun _ _ _ => Iff.rfl⟩
  intro o ho _
  obtain ⟨n, hn⟩ := h o ho
  rw [DateTime.timestamp_of_whole hn, DateTime.seconds_of_whole hn]

end Batch

namespace Sample

/-- Down at noon, and up half a second later. -/
def batch : ObservationBatch where
  siteId := "site-1"
  observations := [downAt "fiber0" 0, { upAt "fiber0" 0 with atTime := afterNoon }]

/-- Both are sent as of noon. -/
def sentBatch : ObservationBatch := ⟨"site-1", [downAt "fiber0" 0, upAt "fiber0" 0]⟩

theorem cut_batch : batch.cut = .ok sentBatch := by
  have hcut : afterNoon.cut = .ok (clock 0) := by
    rw [DateTime.cut, seconds_afterNoon]
    exact cut_clock 0
  have hdown : (downAt "fiber0" 0).cut = .ok (downAt "fiber0" 0) :=
    Observation.cut_eq_ok_iff.mpr ⟨clock 0, cut_clock 0, rfl⟩
  have hup : Observation.cut { upAt "fiber0" 0 with atTime := afterNoon } = .ok (upAt "fiber0" 0) :=
    Observation.cut_eq_ok_iff.mpr ⟨clock 0, hcut, rfl⟩
  have hmap : batch.observations.mapM Observation.cut = .ok sentBatch.observations :=
    mapM_eq_ok_iff.mpr (.cons hdown (.cons hup .nil))
  rw [ObservationBatch.cut, hmap]
  rfl

/-- Nothing of it is past the horizon a minute later. -/
theorem asOf_batch : batch.asSnapshot.asOf (clock 60) = batch.asSnapshot := by
  have hup : afterNoon.timestamp ≤ horizon (clock 60) := by decide +kernel
  have hdown : (clock 0).timestamp ≤ horizon (clock 60) := by decide +kernel
  rw [EvidenceSnapshot.asOf, List.filter_eq_self.mpr]
  simp [batch, ObservationBatch.asSnapshot, downAt, upAt, hup, hdown]

end Sample

/-- Of two measurements half a second apart the later decides at the site, the first at who is sent
them, under another hash. -/
theorem sent_batch_differs : ∃ w received d d',
    decodeObservationBatch standIn (.bytes (encodeObservationBatch standIn Sample.batch)) = .ok w ∧
    ObservationBatch.declared? w = some received ∧
    decide standIn (Sample.bundle 1) Sample.batch.asSnapshot (Sample.clock 60) "site-1" false =
      .ok d ∧
    decide standIn (Sample.bundle 1) received.asSnapshot (Sample.clock 60) "site-1" false =
      .ok d' ∧
    d.permittedFor "bulk" = ["fiber0"] ∧ d'.permittedFor "bulk" = [] ∧
    d.evidenceHash ≠ d'.evidenceHash := by
  have huntil : validUntil (Sample.bundle 1) (Sample.clock 60) = .ok (Sample.clock 120) :=
    Sample.validUntil_minute rfl
  have hasOf : Sample.sentBatch.asSnapshot.asOf (Sample.clock 60) = Sample.sentBatch.asSnapshot :=
    Sample.asOf_noon _ (by simp [Sample.sentBatch, Sample.downAt, Sample.upAt])
  refine ⟨Sample.sentBatch.toWire, Sample.sentBatch, _, _, ?_,
    ObservationBatch.declared?_toWire _, by rw [decide_eq, huntil, Sample.asOf_batch]; rfl,
    by rw [decide_eq, huntil, hasOf]; rfl, by decide +kernel, by decide +kernel, by decide +kernel⟩
  rw [decodeObservationBatch_encodeObservationBatch lawful_standIn, Sample.cut_batch]
  rfl

/-- A batch of whole seconds reproduces what was decided. -/
theorem reproduces_sample : Reproduces standIn Sample.sentBatch (Sample.clock 60) := by
  have hwhole : ∀ o ∈ Sample.sentBatch.observations, ∃ n : Int, o.atTime.us = n * 1000000 := by
    simp only [Sample.sentBatch, List.forall_mem_cons, List.not_mem_nil, false_imp_iff,
      implies_true, and_true]
    exact ⟨⟨1787918400, rfl⟩, ⟨1787918400, rfl⟩⟩
  obtain ⟨hcut, hsent⟩ := sentWhole_of_whole (Sample.clock 60) hwhole
  refine (reproduces_iff lawful_standIn ?_).mpr hsent
  intro c hc
  cases hcut.symm.trans hc
  intro v hv w hw _
  simp only [List.mem_cons, List.not_mem_nil, or_false, or_self] at hv hw
  rw [hv, hw]

end Pilotfish
