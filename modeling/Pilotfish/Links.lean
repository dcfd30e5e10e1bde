import Pilotfish.Dict
import Pilotfish.FloatArith
import Pilotfish.Models

/-!
# Link failure models

Each model produces observations, which is the only way the rest of the system can learn anything
about it. A model that stops reporting is what a dead sensor looks like from the agent's side.

Results:
1. `step_reports`: what a model reports: that it is up only if it can be used, and of its quota only
   what it has used.
2. `step_idle`: what a model draws and reports depends on the traffic it carried in its quota only.
-/

namespace Pilotfish
open Python

def GB : Int := 10 ^ 9

/-- What a kind of model has besides the fields of every model. -/
inductive LinkKind
  | base
  | fiber (baseRttMs : Double)
  | lte (quotaGb baseRttMs congestion costPerGbOver : Double)
  | satellite (baseRttMs : Double) (obstructed : Bool) (quotaGb costPerGbOver : Double)
  | fso (visibilityM baseRttMs usableVisibilityM : Double)

/-- A link that is up, silent, or dead, and reports what it knows. -/
structure LinkModel where
  linkId : String
  up : Bool := true
  sensorFailed : Bool := false
  bytesCarried : Int := 0
  kind : LinkKind

/-- Fails rarely and totally. -/
def fiberModel (linkId : String) (baseRttMs : Double := .fin 8) : LinkModel where
  linkId := linkId
  kind := .fiber baseRttMs

/-- Degrades with load and runs out of allowance. -/
def lteModel (linkId : String) (quotaGb : Double := .fin 10) (baseRttMs : Double := .fin 45)
    (congestion : Double := .fin 0) (costPerGbOver : Double := .fin 8) : LinkModel where
  linkId := linkId
  kind := .lte quotaGb baseRttMs congestion costPerGbOver

/-- A latency floor plus weather-driven obstruction. -/
def satelliteModel (linkId : String) (baseRttMs : Double := .fin 90) (obstructed : Bool := false)
    (quotaGb : Double := .fin 50) (costPerGbOver : Double := .fin 3) : LinkModel where
  linkId := linkId
  kind := .satellite baseRttMs obstructed quotaGb costPerGbOver

/-- Fast, cheap and short-sighted. -/
def fsoModel (linkId : String) (visibilityM : Double := .fin 8000) (baseRttMs : Double := .fin 3)
    (usableVisibilityM : Double := .fin 500) : LinkModel where
  linkId := linkId
  kind := .fso visibilityM baseRttMs usableVisibilityM

/-- A measurement of a float, which has to be finite. -/
def observation (linkId quantity : String) (value : Double) (t : DateTime) (source : String) :
    Except Exc Observation :=
  if h : (Value.float value).isfinite = .ok true then
    .ok {
      linkId := linkId
      quantity := quantity
      value := ⟨.float value, h⟩
      atTime := t
      source := source }
  else .error ⟨.ValueError,
    "Observation.value must be finite, got " ++ (Value.float value).quoted⟩

namespace LinkModel

def carry (bytes : Int) (m : LinkModel) : LinkModel :=
  { m with bytesCarried := m.bytesCarried + bytes }

def liveness (m : LinkModel) (t : DateTime) : Except Exc Observation :=
  observation m.linkId "up" (if m.up then .fin 1 else .fin 0) t "agent"

/-- The allowance of an LTE or a satellite model. -/
def quotaGb (m : LinkModel) : Option Double :=
  match m.kind with
  | .lte quotaGb _ _ _ => some quotaGb
  | .satellite _ _ quotaGb _ => some quotaGb
  | _ => none

def costPerGb (m : LinkModel) : Double :=
  match m.kind with
  | .lte _ _ _ costPerGbOver => costPerGbOver
  | .satellite _ _ _ costPerGbOver => costPerGbOver
  | _ => .fin 0

/-- Whether the link can be used; in fog an FSO link cannot. -/
def isUp (m : LinkModel) : Bool :=
  match m.kind with
  | .fso visibilityM _ usableVisibilityM => m.up && usableVisibilityM.le visibilityM
  | _ => m.up

section Floats
variable (rd : ℚ → Double)

/-- How much of an allowance some bytes use up, in percent. -/
def quotaUsedPct (quotaGb : Double) (bytesCarried : Int) : Except Exc Double :=
  if quotaGb.le (.fin 0) then .ok (.fin 100)
  else do
    let pct ← Double.div rd (.mul rd (.fin 100) (← trueDiv rd bytesCarried GB)) quotaGb
    return .min (.fin 100) pct

variable {ρ : Type} (generator : Random ρ) (m : LinkModel) (t : DateTime) (rng : ρ)

/-- What a model with an allowance reports while it is up. -/
def metered (quotaGb rtt : Double) : Except Exc (List Observation × ρ) := do
  return ([← m.liveness t, ← observation m.linkId "rtt_ms" rtt t "agent",
    -- quota comes from the carrier
    ← observation m.linkId "quota_used_pct" (← quotaUsedPct rd quotaGb m.bytesCarried) t
      "operator"], rng)

def observe : Except Exc (List Observation × ρ) :=
  match m.kind with
  | .base => .error ⟨.NotImplementedError, ""⟩
  | .fiber baseRttMs =>
      if m.up then do
        let (jitter, rng) := generator.uniform rd (.fin (-1)) (.fin 2) rng
        let rtt := Double.add rd baseRttMs jitter
        return ([← m.liveness t, ← observation m.linkId "rtt_ms" rtt t "agent"], rng)
      else return ([← m.liveness t], rng)
  | .lte quotaGb baseRttMs congestion _ =>
      if m.up then
        let (jitter, rng) := generator.uniform rd (.fin (-5)) (.fin 15) rng
        let rtt := Double.add rd (.mul rd baseRttMs (.add rd (.fin 1) congestion)) jitter
        m.metered rd t rng quotaGb rtt
      else return ([← m.liveness t], rng)
  | .satellite baseRttMs obstructed quotaGb _ =>
      if m.up then
        let penalty := if obstructed then .fin 400 else .fin 0
        let (jitter, rng) := generator.uniform rd (.fin (-5)) (.fin 25) rng
        let rtt := Double.add rd (.add rd baseRttMs penalty) jitter
        m.metered rd t rng quotaGb rtt
      else return ([← m.liveness t], rng)
  | .fso visibilityM baseRttMs _ => do
      let up ← observation m.linkId "up" (if m.isUp then .fin 1 else .fin 0) t "agent"
      let visibility ← observation m.linkId "visibility_m" visibilityM t "model"
      if m.isUp then
        let (jitter, rng) := generator.uniform rd (.fin 0) (.fin 1) rng
        return ([up, visibility,
          ← observation m.linkId "rtt_ms" (.add rd baseRttMs jitter) t "agent"], rng)
      else return ([up, visibility], rng)

def step : Except Exc (List Observation × ρ) :=
  if m.sensorFailed then .ok ([], rng) else m.observe rd generator t rng

end Floats

end LinkModel

/-- `d[key]`. -/
def getKey {α : Type} (d : Dict String α) (key : String) : Except Exc α :=
  (d.get? key).elim (.error ⟨.KeyError, "'" ++ key ++ "'"⟩) .ok

/-- The models for one site, addressed by link id. -/
structure LinkFleet where
  models : Dict String LinkModel

namespace LinkFleet

/-- The models report one after the other, all drawing from one stream. -/
def stepItems (rd : ℚ → Double) {ρ : Type} (generator : Random ρ) (t : DateTime) :
    List (String × LinkModel) → ρ → Except Exc (List Observation × ρ)
  | [], rng => .ok ([], rng)
  | (_, model) :: items, rng => do
      let (reported, rng) ← model.step rd generator t rng
      let (more, rng) ← stepItems rd generator t items rng
      return (reported ++ more, rng)

def step (rd : ℚ → Double) {ρ : Type} (generator : Random ρ) (fleet : LinkFleet) (t : DateTime)
    (rng : ρ) : Except Exc (List Observation × ρ) :=
  stepItems rd generator t fleet.models.items rng

def isUp (fleet : LinkFleet) (linkId : String) : Except Exc Bool :=
  (·.isUp) <$> getKey fleet.models linkId

end LinkFleet

/-! ## What is reported -/

section Reports
variable {rd : ℚ → Double} {ρ : Type} {generator : Random ρ} {t : DateTime} {rng rng' : ρ}
  {m : LinkModel} {reported : List Observation} {o : Observation}

theorem observation_eq_ok {linkId quantity source : String} {value : Double} :
    observation linkId quantity value t source = .ok o ↔
    ∃ h, o = ⟨linkId, quantity, ⟨.float value, h⟩, t, source⟩ := by
  unfold observation
  split_ifs with h
  · simp only [Except.ok.injEq, h, exists_true_left]
    exact eq_comm
  · simp only [h, false_iff, not_exists]
    intro h'
    exact absurd h' (by simp)

/-- What a measurement says about the model it is of. -/
structure Reports (rd : ℚ → Double) (m : LinkModel) (t : DateTime) (o : Observation) : Prop where
  linkId : o.linkId = m.linkId
  atTime : o.atTime = t
  up : o.quantity = "up" → (1 ≤ o.value.toRat ↔ m.isUp = true)
  quota : o.quantity = "quota_used_pct" → ∃ quotaGb pct, m.quotaGb = some quotaGb ∧
    LinkModel.quotaUsedPct rd quotaGb m.bytesCarried = .ok pct ∧ o.value.value = .float pct

theorem reports_up {up : Bool} (h : observation m.linkId "up" (if up then .fin 1 else .fin 0) t
    "agent" = .ok o) (hup : m.isUp = up) : Reports rd m t o := by
  obtain ⟨hfinite, rfl⟩ := observation_eq_ok.mp h
  refine ⟨rfl, rfl, fun _ => ?_, fun hquantity => ?_⟩
  swap
  · exact absurd (show "up" = "quota_used_pct" from hquantity) (by decide)
  rw [hup]
  cases up with
  | true => simp [Num.toRat]
  | false => simp [Num.toRat]

theorem reports_other {quantity source : String} {value : Double}
    (h : observation m.linkId quantity value t source = .ok o) (hup : quantity ≠ "up")
    (hquota : quantity ≠ "quota_used_pct") : Reports rd m t o := by
  obtain ⟨hfinite, rfl⟩ := observation_eq_ok.mp h
  exact ⟨rfl, rfl, fun hquantity => absurd hquantity hup, fun hquantity => absurd hquantity hquota⟩

theorem reports_quota {quotaGb pct : Double} (hkind : m.quotaGb = some quotaGb)
    (hpct : LinkModel.quotaUsedPct rd quotaGb m.bytesCarried = .ok pct)
    (h : observation m.linkId "quota_used_pct" pct t "operator" = .ok o) : Reports rd m t o := by
  obtain ⟨hfinite, rfl⟩ := observation_eq_ok.mp h
  refine ⟨rfl, rfl, fun hquantity => ?_, fun _ => ⟨quotaGb, pct, hkind, hpct, rfl⟩⟩
  exact absurd (show "quota_used_pct" = "up" from hquantity) (by decide)

theorem metered_reports {quotaGb rtt : Double} {after : ρ} (hquota : m.quotaGb = some quotaGb)
    (hup : m.isUp = m.up) (h : m.metered rd t after quotaGb rtt = .ok (reported, rng')) :
    ∀ o ∈ reported, Reports rd m t o := by
  obtain ⟨up, hlive, h⟩ := bind_eq_ok_iff.mp h
  obtain ⟨latency, hrtt, h⟩ := bind_eq_ok_iff.mp h
  obtain ⟨pct, hpct, h⟩ := bind_eq_ok_iff.mp h
  obtain ⟨used, hused, h⟩ := bind_eq_ok_iff.mp h
  cases h
  simp only [List.forall_mem_cons]
  exact ⟨reports_up hlive hup, reports_other hrtt (by decide) (by decide),
    reports_quota hquota hpct hused, fun o ho => by cases ho⟩

/-- A model that is down reports only that. -/
theorem down_reports (hup : m.isUp = m.up) {after : ρ}
    (h : (do return ([← m.liveness t], after)) = Except.ok (reported, rng')) :
    ∀ o ∈ reported, Reports rd m t o := by
  obtain ⟨up, hlive, h⟩ := bind_eq_ok_iff.mp h
  cases h
  simp only [List.forall_mem_cons]
  exact ⟨reports_up hlive hup, fun o ho => by cases ho⟩

/-- The two kinds with an allowance report alike, and draw whatever they carried. -/
theorem observe_of_quota (rd : ℚ → Double) (generator : Random ρ) (t : DateTime) (rng : ρ)
    {quotaGb : Double} (h : m.quotaGb = some quotaGb) :
    (∀ m' : LinkModel, m'.kind = m.kind → m'.isUp = m'.up) ∧
    ∃ rtt after, ∀ m' : LinkModel, m'.kind = m.kind → m'.observe rd generator t rng =
      if m'.up then m'.metered rd t after quotaGb rtt
      else (do return ([← m'.liveness t], rng)) := by
  unfold LinkModel.quotaGb at h
  cases hkind : m.kind with
  | lte quotaGb' baseRttMs congestion costPerGbOver =>
    rw [hkind] at h
    obtain rfl : quotaGb' = quotaGb := Option.some.inj h
    let draw := generator.uniform rd (.fin (-5)) (.fin 15) rng
    refine ⟨fun m' hm' => by rw [LinkModel.isUp, hm'],
      .add rd (.mul rd baseRttMs (.add rd (.fin 1) congestion)) draw.1, draw.2, ?_⟩
    intro m' hm'
    rw [LinkModel.observe, hm']
  | satellite baseRttMs obstructed quotaGb' costPerGbOver =>
    rw [hkind] at h
    obtain rfl : quotaGb' = quotaGb := Option.some.inj h
    let draw := generator.uniform rd (.fin (-5)) (.fin 25) rng
    refine ⟨fun m' hm' => by rw [LinkModel.isUp, hm'],
      .add rd (.add rd baseRttMs (if obstructed then .fin 400 else .fin 0)) draw.1, draw.2, ?_⟩
    intro m' hm'
    rw [LinkModel.observe, hm']
  | base => simp [hkind] at h
  | fiber baseRttMs => simp [hkind] at h
  | fso visibilityM baseRttMs usableVisibilityM => simp [hkind] at h

theorem fiber_reports {baseRttMs : Double} (hkind : m.kind = .fiber baseRttMs)
    (h : m.observe rd generator t rng = .ok (reported, rng')) :
    ∀ o ∈ reported, Reports rd m t o := by
  have hup : m.isUp = m.up := by rw [LinkModel.isUp, hkind]
  unfold LinkModel.observe at h
  rw [hkind] at h
  dsimp only at h
  split_ifs at h
  · obtain ⟨up, hlive, h⟩ := bind_eq_ok_iff.mp h
    obtain ⟨rtt, hrtt, h⟩ := bind_eq_ok_iff.mp h
    cases h
    simp only [List.forall_mem_cons]
    exact ⟨reports_up hlive hup, reports_other hrtt (by decide) (by decide),
      fun o ho => by cases ho⟩
  · exact down_reports hup h

theorem fso_reports {visibilityM baseRttMs usableVisibilityM : Double}
    (hkind : m.kind = .fso visibilityM baseRttMs usableVisibilityM)
    (h : m.observe rd generator t rng = .ok (reported, rng')) :
    ∀ o ∈ reported, Reports rd m t o := by
  unfold LinkModel.observe at h
  rw [hkind] at h
  obtain ⟨up, hlive, h⟩ := bind_eq_ok_iff.mp h
  obtain ⟨visibility, hvisibility, h⟩ := bind_eq_ok_iff.mp h
  have hlive : Reports rd m t up := reports_up hlive rfl
  have hvisibility : Reports rd m t visibility :=
    reports_other hvisibility (by decide) (by decide)
  split_ifs at h
  · obtain ⟨rtt, hrtt, h⟩ := bind_eq_ok_iff.mp h
    cases h
    simp only [List.forall_mem_cons]
    exact ⟨hlive, hvisibility, reports_other hrtt (by decide) (by decide), fun o ho => by cases ho⟩
  · cases h
    simp only [List.forall_mem_cons]
    exact ⟨hlive, hvisibility, fun o ho => by cases ho⟩

theorem step_reports (h : m.step rd generator t rng = .ok (reported, rng')) :
    ∀ o ∈ reported, Reports rd m t o := by
  unfold LinkModel.step at h
  split_ifs at h
  · cases h
    exact fun o ho => by cases ho
  cases hquota : m.quotaGb with
  | some quotaGb =>
    obtain ⟨hup, rtt, after, hobserve⟩ := observe_of_quota rd generator t rng hquota
    rw [hobserve m rfl] at h
    split_ifs at h
    · exact metered_reports hquota (hup m rfl) h
    · exact down_reports (hup m rfl) h
  | none =>
    cases hkind : m.kind with
    | base => simp [LinkModel.observe, hkind] at h
    | fiber baseRttMs => exact fiber_reports hkind h
    | fso visibilityM baseRttMs usableVisibilityM => exact fso_reports hkind h
    | lte _ _ _ _ => simp [LinkModel.quotaGb, hkind] at hquota
    | satellite _ _ _ _ => simp [LinkModel.quotaGb, hkind] at hquota

end Reports

/-! ## A site that carries nothing -/

/-- The measurements of anything but a quota. -/
def unmetered (reported : List Observation) : List Observation :=
  reported.filter fun o => o.quantity ≠ "quota_used_pct"

/-- The model as it would be if it had carried nothing. -/
def LinkModel.idle (m : LinkModel) : LinkModel := { m with bytesCarried := 0 }

def LinkFleet.idle (fleet : LinkFleet) : LinkFleet := ⟨fleet.models.map LinkModel.idle⟩

@[simp] theorem isUp_idle (m : LinkModel) : m.idle.isUp = m.isUp := rfl

@[simp] theorem idle_carry (bytes : Int) (m : LinkModel) : (m.carry bytes).idle = m.idle := rfl

section Idle
variable {rd : ℚ → Double} {ρ : Type} {generator : Random ρ} {t : DateTime} {rng rng' : ρ}
  {m : LinkModel} {reported : List Observation}

/-- The quota of a model that carried nothing can be reported. -/
theorem quotaUsedPct_zero (rd : ℚ → Double) (quotaGb : Double) :
    ∃ pct, LinkModel.quotaUsedPct rd quotaGb 0 = .ok pct ∧
      (Value.float pct).isfinite = .ok true := by
  have hnothing : trueDiv rd 0 GB = .ok (.fin 0) := rfl
  have hproduct : Double.mul rd (.fin 100) (.fin 0) = .fin 0 := by simp [Double.mul, Double.zero,
    Double.negative]
  unfold LinkModel.quotaUsedPct
  split_ifs with hquota
  · exact ⟨_, rfl, rfl⟩
  · simp only [hnothing, bind, Except.bind, hproduct]
    -- what is left of a positive allowance is all of it, and `nan` is no less than that
    cases quotaGb with
    | fin q =>
      have hpos : 0 < q := by
        by_contra hle
        rcases lt_or_eq_of_le (not_lt.mp hle) with hlt | rfl
        · simp [Double.le, Double.lt, hlt] at hquota
        · simp [Double.le, Double.eq] at hquota
      refine ⟨.fin 0, ?_, rfl⟩
      simp [Double.div, Double.isZero, Double.zero, Double.negative, Double.min, Double.lt,
        hpos.ne', hpos.not_gt, pure, Except.pure]
    | negZero => simp [Double.le, Double.eq] at hquota
    | inf => exact ⟨_, rfl, rfl⟩
    | negInf => simp [Double.le, Double.lt] at hquota
    | nan => exact ⟨_, rfl, rfl⟩

/-- What a metered model reports besides its quota does not depend on what it carried. -/
theorem metered_idle {quotaGb rtt : Double} {after : ρ}
    (h : m.metered rd t after quotaGb rtt = .ok (reported, rng')) :
    ∃ reported', m.idle.metered rd t after quotaGb rtt = .ok (reported', rng') ∧
      unmetered reported' = unmetered reported := by
  obtain ⟨up, hlive, h⟩ := bind_eq_ok_iff.mp h
  obtain ⟨latency, hrtt, h⟩ := bind_eq_ok_iff.mp h
  obtain ⟨pct, hpct, h⟩ := bind_eq_ok_iff.mp h
  obtain ⟨used, hused, h⟩ := bind_eq_ok_iff.mp h
  cases h
  obtain ⟨pct', hpct', hfinite⟩ := quotaUsedPct_zero rd quotaGb
  have hunused : observation m.idle.linkId "quota_used_pct" pct' t "operator" =
      .ok ⟨m.linkId, "quota_used_pct", ⟨.float pct', hfinite⟩, t, "operator"⟩ :=
    observation_eq_ok.mpr ⟨hfinite, rfl⟩
  refine ⟨_, bind_eq_ok_iff.mpr ⟨up, hlive, bind_eq_ok_iff.mpr ⟨latency, hrtt,
    bind_eq_ok_iff.mpr ⟨pct', hpct', bind_eq_ok_iff.mpr ⟨_, hunused, rfl⟩⟩⟩⟩, ?_⟩
  obtain ⟨_, rfl⟩ := observation_eq_ok.mp hused
  simp [unmetered, List.filter_cons]

/-- A model without an allowance does not look at what it carried. -/
theorem observe_idle (h : m.quotaGb = none) :
    m.idle.observe rd generator t rng = m.observe rd generator t rng := by
  obtain ⟨linkId, up, sensorFailed, bytesCarried, kind⟩ := m
  cases kind with
  | lte _ _ _ _ => cases h
  | satellite _ _ _ _ => cases h
  | base => rfl
  | fiber baseRttMs => rfl
  | fso visibilityM baseRttMs usableVisibilityM => rfl

theorem step_idle (h : m.step rd generator t rng = .ok (reported, rng')) :
    ∃ reported', m.idle.step rd generator t rng = .ok (reported', rng') ∧
      unmetered reported' = unmetered reported := by
  unfold LinkModel.step at h ⊢
  have hsensor : m.idle.sensorFailed = m.sensorFailed := rfl
  rw [hsensor]
  by_cases hfailed : m.sensorFailed = true
  · rw [if_pos hfailed] at h ⊢
    exact ⟨reported, h, rfl⟩
  rw [if_neg hfailed] at h ⊢
  cases hquota : m.quotaGb with
  | none =>
    rw [observe_idle hquota]
    exact ⟨reported, h, rfl⟩
  | some quotaGb =>
    obtain ⟨-, rtt, after, hobserve⟩ := observe_of_quota rd generator t rng hquota
    rw [hobserve m rfl] at h
    rw [hobserve m.idle rfl]
    have hup : m.idle.up = m.up := rfl
    rw [hup]
    by_cases hlive : m.up = true
    · rw [if_pos hlive] at h ⊢
      exact metered_idle h
    · rw [if_neg hlive] at h ⊢
      exact ⟨reported, h, rfl⟩

end Idle

/-! ## The fleet -/

section Fleet
variable {rd : ℚ → Double} {ρ : Type} {generator : Random ρ} {t : DateTime} {rng rng' : ρ}
  {items : List (String × LinkModel)} {reported : List Observation} {fleet : LinkFleet}

theorem stepItems_reports
    (h : LinkFleet.stepItems rd generator t items rng = .ok (reported, rng')) :
    ∀ o ∈ reported, ∃ item ∈ items, Reports rd item.2 t o := by
  induction items generalizing reported rng with
  | nil =>
    cases h
    exact fun o ho => by cases ho
  | cons item items ih =>
    obtain ⟨⟨first, rng₁⟩, hfirst, h⟩ := bind_eq_ok_iff.mp h
    obtain ⟨⟨more, rng₂⟩, hmore, h⟩ := bind_eq_ok_iff.mp h
    cases h
    intro o ho
    rcases List.mem_append.mp ho with ho | ho
    · exact ⟨item, List.mem_cons_self, step_reports hfirst o ho⟩
    · obtain ⟨other, hother, hreports⟩ := ih hmore o ho
      exact ⟨other, List.mem_cons_of_mem _ hother, hreports⟩

/-- Every measurement of a fleet is of one of its models. -/
theorem fleet_reports (h : fleet.step rd generator t rng = .ok (reported, rng')) {o : Observation}
    (ho : o ∈ reported) :
    ∃ key m, fleet.models.get? key = some m ∧ Reports rd m t o := by
  obtain ⟨⟨key, m⟩, hitem, hreports⟩ := stepItems_reports h o ho
  exact ⟨key, m, Dict.get?_eq_some.mpr hitem, hreports⟩

theorem stepItems_idle
    (h : LinkFleet.stepItems rd generator t items rng = .ok (reported, rng')) :
    ∃ reported', LinkFleet.stepItems rd generator t
        (items.map fun item => (item.1, item.2.idle)) rng = .ok (reported', rng') ∧
      unmetered reported' = unmetered reported := by
  induction items generalizing reported rng with
  | nil => exact ⟨reported, h, rfl⟩
  | cons item items ih =>
    obtain ⟨⟨first, rng₁⟩, hfirst, h⟩ := bind_eq_ok_iff.mp h
    obtain ⟨⟨more, rng₂⟩, hmore, h⟩ := bind_eq_ok_iff.mp h
    cases h
    obtain ⟨first', hfirst', hsame⟩ := step_idle hfirst
    obtain ⟨more', hmore', hsame'⟩ := ih hmore
    refine ⟨first' ++ more', bind_eq_ok_iff.mpr ⟨_, hfirst', bind_eq_ok_iff.mpr ⟨_, hmore', rfl⟩⟩, ?_⟩
    rw [unmetered, unmetered, List.filter_append, List.filter_append]
    exact congrArg₂ _ hsame hsame'

/-- What a fleet draws, and reports besides quotas, is what it would had it carried nothing. -/
theorem fleet_step_idle (h : fleet.step rd generator t rng = .ok (reported, rng')) :
    ∃ reported', fleet.idle.step rd generator t rng = .ok (reported', rng') ∧
      unmetered reported' = unmetered reported := stepItems_idle h

theorem isUp_idle_fleet (fleet : LinkFleet) (linkId : String) :
    fleet.idle.isUp linkId = fleet.isUp linkId := by
  unfold LinkFleet.isUp getKey LinkFleet.idle
  rw [Dict.get?_map]
  cases fleet.models.get? linkId with
  | none => rfl
  | some m => rfl

end Fleet

end Pilotfish
