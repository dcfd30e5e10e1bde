import Pilotfish.SameWorld
import Pilotfish.Tariff
import Mathlib.Tactic.FieldSimp

/-!
# What overage is billed

An LTE or a satellite link has an allowance and a price beyond it. The loop looks at the allowance
before it carries a class, and bills the class in full if it was spent, and not at all otherwise.
What crosses the allowance is free. Arithmetic is exact here.

Results:
1. `spent_eq`, `carryAll_billed`: the loop bills its choices as accounts are charged.
2. `run_cost`: the cost of a run is the bill of what it sent; with what goes unbilled it is what the
   run added to the overage of its links.
3. `crossing_is_free`: a run that costs nothing and leaves an overage.
-/

namespace Pilotfish
open Python

/-! ## Exact arithmetic -/

section Arithmetic

theorem trueDiv_fin {m n : Int} (hn : 0 < n) : trueDiv .fin m n = .ok (.fin (m / n)) := by
  unfold trueDiv
  rw [if_neg hn.ne']
  split_ifs with hm
  · simp [hm, Double.zero, not_lt.mpr hn.le]
  · rfl

theorem mul_fin_of_pos {p : ℚ} (hp : 0 < p) (q : ℚ) :
    Double.mul .fin (.fin p) (.fin q) = .fin (p * q) := by
  unfold Double.mul
  dsimp only
  split_ifs with hzero
  · obtain rfl : q = 0 := hzero.resolve_left hp.ne'
    simp [Double.negative, Double.zero, not_lt.mpr hp.le]
  · rfl

theorem div_fin_of_pos (p : ℚ) {q : ℚ} (hq : 0 < q) :
    Double.div .fin (.fin p) (.fin q) = .ok (.fin (p / q)) := by
  unfold Double.div
  rw [if_neg (by simp [Double.isZero, hq.ne'])]
  dsimp only
  split_ifs with hzero
  · simp [hzero, Double.negative, Double.zero, not_lt.mpr hq.le]
  · rfl

/-- A product of nought may carry a sign, which a sum does not show. -/
theorem add_mul_fin (c p q : ℚ) :
    Double.add .fin (.fin c) (.mul .fin (.fin p) (.fin q)) = .fin (c + p * q) := by
  unfold Double.mul
  dsimp only
  split_ifs with hzero
  · rw [mul_eq_zero.mpr hzero]
    unfold Double.zero
    split_ifs <;> simp [Double.add]
  · rfl

theorem le_min_fin (p q : ℚ) :
    (Double.fin p).le (.min (.fin p) (.fin q)) = Decidable.decide (p ≤ q) := by
  unfold Double.min
  split_ifs with hlt
  · rw [Double.le_of_rank rfl rfl]
    simp
  · have hle : p ≤ q := not_lt.mp (by simpa [Double.lt] using hlt)
    simp [Double.le, Double.eq, hle]

end Arithmetic

/-! ## Accounts -/

/-- The number a finite float denotes. -/
def exactly : Double → ℚ
  | .fin q => q
  | _ => 0

namespace LinkModel

/-- An allowance, if there is one, and the price of a gigabyte. -/
def terms (m : LinkModel) : Option Double × Double := (m.quotaGb, m.costPerGb)

/-- A model as an account of bytes. -/
def account (m : LinkModel) : Tariff.Account where
  allowance := m.quotaGb.map fun quotaGb => exactly quotaGb * GB
  rate := exactly m.costPerGb / GB
  carried := m.bytesCarried

end LinkModel

namespace LinkFleet

def terms (fleet : LinkFleet) : Dict String (Option Double × Double) :=
  fleet.models.map LinkModel.terms

def ledger (fleet : LinkFleet) : Dict String Tariff.Account := fleet.models.map LinkModel.account

end LinkFleet

/-- A quota is a positive number, and a price a number. -/
structure ExactTerms (terms : Option Double × Double) : Prop where
  quota : ∀ quotaGb, terms.1 = some quotaGb → ∃ q : ℚ, 0 < q ∧ quotaGb = .fin q
  price : ∃ p : ℚ, terms.2 = .fin p

def LinkFleet.Exact (fleet : LinkFleet) : Prop := ∀ item ∈ fleet.terms.items, ExactTerms item.2

theorem exactTerms_of_get? {fleet : LinkFleet} (hexact : fleet.Exact) {linkId : String}
    {model : LinkModel} (h : fleet.models.get? linkId = some model) : ExactTerms model.terms :=
  hexact (linkId, model.terms) (List.mem_map.mpr ⟨_, Dict.get?_eq_some.mp h, rfl⟩)

theorem quotaUsedPct_fin {q : ℚ} (hq : 0 < q) (bytes : Int) :
    LinkModel.quotaUsedPct .fin (.fin q) bytes =
      .ok (.min (.fin 100) (.fin (100 * (bytes / GB) / q))) := by
  have hpos : (Double.fin q).le (.fin 0) = false := by
    simp [Double.le, Double.lt, Double.eq, hq.ne', not_lt.mpr hq.le]
  unfold LinkModel.quotaUsedPct
  rw [hpos, trueDiv_fin (by decide)]
  show (Double.div _ (.mul _ _ _) _ >>= _) = _
  rw [mul_fin_of_pos (by norm_num), div_fin_of_pos _ hq]
  rfl

/-- A percentage of a hundred is an allowance that is spent. -/
theorem spent_eq {m : LinkModel} (hexact : ExactTerms m.terms) :
    m.spent .fin = .ok m.account.spent := by
  unfold LinkModel.spent LinkModel.account Tariff.Account.spent
  cases hquota : m.quotaGb with
  | none => rfl
  | some quotaGb =>
    obtain ⟨q, hq, rfl⟩ := hexact.quota quotaGb hquota
    show _ <$> LinkModel.quotaUsedPct _ _ _ =
      Except.ok (Decidable.decide (q * GB ≤ m.bytesCarried))
    have hgb : (0 : ℚ) < GB := by exact_mod_cast (by decide : (0 : Int) < GB)
    have hhundred : (0 : ℚ) < 100 := by norm_num
    have hfull : 100 ≤ 100 * ((m.bytesCarried : ℚ) / GB) / q ↔ q * GB ≤ m.bytesCarried := by
      rw [le_div_iff₀ hq, mul_le_mul_iff_right₀ hhundred, le_div_iff₀ hgb]
    rw [quotaUsedPct_fin hq]
    show Except.ok (Double.le _ (.min _ _)) = _
    rw [le_min_fin, decide_eq_decide.mpr hfull]

/-! ## What a run sends -/

/-- The bytes of a class in a step. -/
def Scenario.volume (scenario : Scenario) (classId : String) : Int :=
  (scenario.trafficBytesPerS.get? classId).getD 0 * scenario.stepS

/-- What is sent for a choice, and over which link: nothing unless that is up. -/
def Scenario.sendOf (scenario : Scenario) (up : List (String × Bool)) :
    String × Option String → Option (String × Int)
  | (_, none) => none
  | (classId, some linkId) =>
      if up.lookup linkId = some true then some (linkId, scenario.volume classId) else none

/-- What the choices of a step send, in their order. -/
def Scenario.sends (scenario : Scenario) (up : List (String × Bool)) (choices : Choices) :
    List (String × Int) := choices.filterMap (scenario.sendOf up)

/-- What was sent in a run, by what its frames show. -/
def RunResult.sends (scenario : Scenario) (result : RunResult) : List (String × Int) :=
  result.frames.flatMap fun frame => scenario.sends frame.up frame.choices

/-! ## Carrying -/

/-- A part of a step that bills some sends. -/
structure Billed (sends : List (String × Int)) (fleet fleet' : LinkFleet)
    (result result' : RunResult) : Prop where
  ledger : fleet'.ledger = Tariff.credit fleet.ledger sends
  terms : fleet'.terms = fleet.terms
  upStates : fleet'.upStates = fleet.upStates
  cost : ∀ c : ℚ, result.cost = .fin c →
    result'.cost = .fin (c + Tariff.bill fleet.ledger sends)
  frames : result'.frames = result.frames

section Carrying
variable {scenario : Scenario} {fleet fleet' fleet'' : LinkFleet}
  {result result' result'' : RunResult} {sends later : List (String × Int)}

theorem billed_nothing (hcost : result'.cost = result.cost)
    (hframes : result'.frames = result.frames) : Billed [] fleet fleet result result' where
  ledger := (Tariff.credit_nil _).symm
  terms := rfl
  upStates := rfl
  cost c hc := by rw [hcost, hc, Tariff.bill_nil, add_zero]
  frames := hframes

theorem Billed.trans (h : Billed sends fleet fleet' result result')
    (h' : Billed later fleet' fleet'' result' result'') :
    Billed (sends ++ later) fleet fleet'' result result'' where
  ledger := by rw [h'.ledger, h.ledger, Tariff.credit_append]
  terms := h'.terms.trans h.terms
  upStates := h'.upStates.trans h.upStates
  cost c hc := by rw [h'.cost _ (h.cost c hc), h.ledger, Tariff.bill_append, add_assoc]
  frames := h'.frames.trans h.frames

/-- Carrying some bytes is a send for the account of a link. -/
theorem ledger_carry (fleet : LinkFleet) (linkId : String) (bytes : Int) :
    (LinkFleet.mk (fleet.models.modify linkId (.carry bytes))).ledger =
      Tariff.credit fleet.ledger [(linkId, bytes)] := by
  have haccount (m : LinkModel) : (m.carry bytes).account = m.account.send bytes := rfl
  rw [Tariff.credit_single]
  exact Dict.map_modify haccount fleet.models linkId

theorem terms_carry (fleet : LinkFleet) (linkId : String) (bytes : Int) :
    (LinkFleet.mk (fleet.models.modify linkId (.carry bytes))).terms = fleet.terms := by
  have hterms (m : LinkModel) : (m.carry bytes).terms = m.terms := rfl
  exact Dict.map_modify_unseen hterms fleet.models linkId

theorem upStates_carry (fleet : LinkFleet) (linkId : String) (bytes : Int) :
    (LinkFleet.mk (fleet.models.modify linkId (.carry bytes))).upStates = fleet.upStates := by
  have hup (m : LinkModel) : (m.carry bytes).isUp = m.isUp := rfl
  exact congrArg Dict.items (Dict.map_modify_unseen hup fleet.models linkId)

/-- Carrying over a link bills what its account is charged. -/
theorem billed_carry {linkId : String} {model : LinkModel} {bytes : Int}
    (hmodel : fleet.models.get? linkId = some model)
    (hcost : ∀ c : ℚ, result.cost = .fin c →
      result'.cost = .fin (c + model.account.charge bytes))
    (hframes : result'.frames = result.frames) :
    Billed [(linkId, bytes)] fleet ⟨fleet.models.modify linkId (.carry bytes)⟩ result result' where
  ledger := ledger_carry fleet linkId bytes
  terms := terms_carry fleet linkId bytes
  upStates := upStates_carry fleet linkId bytes
  cost c hc := by
    have haccount : fleet.ledger.get? linkId = some model.account := by
      rw [LinkFleet.ledger, Dict.get?_map, hmodel]
      rfl
    rw [hcost c hc, Tariff.bill_single _ haccount]
  frames := hframes

/-- What the loop adds to the cost is what the account of a spent allowance is charged. -/
theorem cost_of_spent {m : LinkModel} (hprice : ∃ p : ℚ, m.terms.2 = .fin p) {bytes : Int}
    {gb cost : Double} (hgb : trueDiv .fin bytes (10 ^ 9) = .ok gb) {c : ℚ} (hc : cost = .fin c) :
    Double.add .fin cost (.mul .fin gb m.costPerGb) = .fin (c + m.account.rate * bytes) := by
  obtain ⟨p, hp⟩ := hprice
  have hcost : m.costPerGb = .fin p := hp
  rw [trueDiv_fin (by decide)] at hgb
  obtain rfl : Double.fin _ = gb := Except.ok.inj hgb
  have hrate : m.account.rate = p / GB := by
    rw [LinkModel.account, hcost]
    rfl
  rw [hc, hcost, add_mul_fin, hrate, GB]
  congr 2
  ring

theorem carryOne_billed (hexact : fleet.Exact) {choice : String × Option String}
    (h : carryOne .fin scenario fleet result choice = .ok (fleet', result')) :
    Billed (scenario.sendOf fleet.upStates choice).toList fleet fleet' result result' := by
  obtain ⟨classId, linkId⟩ := choice
  cases linkId with
  | none =>
    cases h
    exact billed_nothing rfl rfl
  | some linkId =>
    obtain ⟨up, hup, h⟩ := bind_eq_ok_iff.mp h
    dsimp only [Scenario.sendOf]
    rw [isUp_eq_ok hup]
    cases up with
    | false =>
      cases h
      exact billed_nothing rfl rfl
    | true =>
      obtain ⟨model, hmodel, h⟩ := bind_eq_ok_iff.mp h
      have hget := getKey_eq_ok.mp hmodel
      have hterms := exactTerms_of_get? hexact hget
      obtain ⟨spent, hspent, h⟩ := bind_eq_ok_iff.mp h
      have hspent := Except.ok.inj ((spent_eq hterms).symm.trans hspent)
      cases spent with
      | false =>
        cases h
        refine billed_carry hget ?_ rfl
        intro c hc
        rw [hc, Tariff.Account.charge, hspent, if_neg Bool.false_ne_true, add_zero]
      | true =>
        obtain ⟨gb, hgb, h⟩ := bind_eq_ok_iff.mp h
        cases h
        refine billed_carry hget ?_ rfl
        intro c hc
        rw [Tariff.Account.charge, hspent, if_pos rfl]
        exact cost_of_spent hterms.price hgb hc

/-- The choices of a step bill what they send. -/
theorem carryAll_billed (hexact : fleet.Exact) {choices : Choices}
    (h : carryAll .fin scenario choices fleet result = .ok (fleet', result')) :
    Billed (scenario.sends fleet.upStates choices) fleet fleet' result result' := by
  induction choices generalizing fleet result with
  | nil =>
    cases h
    exact billed_nothing rfl rfl
  | cons choice choices ih =>
    obtain ⟨⟨fleet₁, result₁⟩, hone, h⟩ := bind_eq_ok_iff.mp h
    have hfirst := carryOne_billed hexact hone
    have hexact₁ : fleet₁.Exact := by
      unfold LinkFleet.Exact
      rw [hfirst.terms]
      exact hexact
    have hrest := ih hexact₁ h
    rw [hfirst.upStates] at hrest
    have hsends : scenario.sends fleet.upStates (choice :: choices) =
        (scenario.sendOf fleet.upStates choice).toList ++
          scenario.sends fleet.upStates choices := by
      unfold Scenario.sends
      rw [List.filterMap_cons]
      cases scenario.sendOf fleet.upStates choice with
      | none => rfl
      | some send => rfl
    rw [hsends]
    exact hfirst.trans hrest

end Carrying

/-! ## Events -/

/-- What can be read off a model whatever happens to its link. -/
structure Unseen {β : Type} (g : LinkModel → β) : Prop where
  up : ∀ b m, g (.setUp b m) = g m
  sensorFailed : ∀ b m, g (.setSensorFailed b m) = g m
  visibility : ∀ v m, g (.setVisibility v m) = g m
  obstructed : ∀ b m, g (.setObstructed b m) = g m

theorem unseen_terms : Unseen LinkModel.terms where
  up _ _ := rfl
  sensorFailed _ _ := rfl
  visibility v m := by
    obtain ⟨_, _, _, _, kind⟩ := m
    cases kind <;> rfl
  obstructed b m := by
    obtain ⟨_, _, _, _, kind⟩ := m
    cases kind <;> rfl

/-- An account is of the terms and of what was carried. -/
theorem account_of_terms {m m' : LinkModel} (hterms : m'.terms = m.terms)
    (hcarried : m'.bytesCarried = m.bytesCarried) : m'.account = m.account := by
  obtain ⟨hquota, hcost⟩ := Prod.mk.inj hterms
  rw [LinkModel.account, LinkModel.account, hquota, hcost, hcarried]

theorem unseen_account : Unseen LinkModel.account where
  up b m := account_of_terms (unseen_terms.up b m) rfl
  sensorFailed b m := account_of_terms (unseen_terms.sensorFailed b m) rfl
  visibility v m := by
    refine account_of_terms (unseen_terms.visibility v m) ?_
    unfold LinkModel.setVisibility
    split <;> rfl
  obstructed b m := by
    refine account_of_terms (unseen_terms.obstructed b m) ?_
    unfold LinkModel.setObstructed
    split <;> rfl

section Events
variable {β : Type} {g : LinkModel → β} {fleet fleet' : LinkFleet} {scene scene' : Scene}

theorem assign_map {set : LinkModel → LinkModel} (hset : ∀ m, g (set m) = g m)
    {target field : String} (h : fleet.assign target field set = .ok fleet') :
    fleet'.models.map g = fleet.models.map g := by
  unfold LinkFleet.assign at h
  split at h
  · cases h
  · cases h
    exact Dict.map_modify_unseen hset fleet.models target

theorem applyEvent_map (hg : Unseen g) {event : Event} {authority authority' : Bool}
    (h : applyEvent fleet event authority = .ok (fleet', authority')) :
    fleet'.models.map g = fleet.models.map g := by
  have hassign {set : LinkModel → LinkModel} (hset : ∀ m, g (set m) = g m) {target field : String}
      (h : (fleet.assign target field set).map (·, authority) = .ok (fleet', authority')) :
      fleet'.models.map g = fleet.models.map g := by
    obtain ⟨assigned, hassigned, hpair⟩ := map_eq_ok_iff.mp h
    cases hpair
    exact assign_map hset hassigned
  obtain ⟨_, kind, _⟩ := event
  cases kind with
  | linkDown => exact hassign (hg.up _) h
  | linkUp => exact hassign (hg.up _) h
  | fog => exact hassign (hg.visibility _) h
  | clear => exact hassign (hg.visibility _) h
  | obstruct => exact hassign (hg.obstructed _) h
  | unobstruct => exact hassign (hg.obstructed _) h
  | sensorFail => exact hassign (hg.sensorFailed _) h
  | sensorRecover => exact hassign (hg.sensorFailed _) h
  | authorityUnreachable =>
    cases h
    rfl
  | authorityReachable =>
    cases h
    rfl

theorem happenAll_map (hg : Unseen g) {step : Nat} {atS : Int} {events : List (Event × Nat)}
    (h : scene.happenAll step atS events = .ok scene') :
    scene'.fleet.models.map g = scene.fleet.models.map g := by
  induction events generalizing scene with
  | nil =>
    cases h
    rfl
  | cons entry events ih =>
    obtain ⟨event, place⟩ := entry
    unfold Scene.happenAll at h
    split_ifs at h
    · obtain ⟨⟨fleet, authority⟩, happly, h⟩ := bind_eq_ok_iff.mp h
      exact (ih h).trans (applyEvent_map hg happly)
    · exact ih h

end Events

/-! ## Runs -/

/-- The loop has billed all that was sent, on the terms the fleet started with. -/
structure Settled {ρ σ : Type} (scenario : Scenario) (loop : Loop ρ σ) : Prop where
  ledger : loop.world.scene.fleet.ledger =
    Tariff.credit scenario.fleet.ledger (loop.result.sends scenario)
  terms : loop.world.scene.fleet.terms = scenario.fleet.terms
  cost : loop.result.cost =
    .fin (Tariff.bill scenario.fleet.ledger (loop.result.sends scenario))

section Runs
variable {ρ σ : Type} {generator : Random ρ} {scenario : Scenario} {selector : Selector σ}

theorem start_settled (seed : Int) (state : σ) :
    Settled scenario (Loop.start generator scenario seed state) where
  ledger := (Tariff.credit_nil _).symm
  terms := rfl
  cost := congrArg Double.fin (Tariff.bill_nil _).symm

theorem step_settled (hexact : scenario.fleet.Exact) {step : Nat} {loop loop' : Loop ρ σ}
    (hsettled : Settled scenario loop)
    (h : loop.step .fin generator scenario selector step = .ok loop') : Settled scenario loop' := by
  obtain ⟨ctx, world, choices, state, found, fleet, result, hlook, -, -, hcarry, hworld, -, -,
    hcost, hframes⟩ := step_ok h
  have hscene := (look_ok hlook).1
  have hledger : world.scene.fleet.ledger = loop.world.scene.fleet.ledger :=
    happenAll_map unseen_account hscene
  have hterms : world.scene.fleet.terms = scenario.fleet.terms :=
    (happenAll_map unseen_terms hscene).trans hsettled.terms
  have hexact' : world.scene.fleet.Exact := by
    unfold LinkFleet.Exact
    rw [hterms]
    exact hexact
  have hbilled := carryAll_billed hexact' hcarry
  have hsends : loop'.result.sends scenario = loop.result.sends scenario ++
      scenario.sends world.scene.fleet.upStates choices := by
    unfold RunResult.sends
    rw [hframes, hbilled.frames, List.flatMap_append, List.flatMap_singleton, ← hbilled.upStates]
    rfl
  refine ⟨?_, ?_, ?_⟩
  · rw [hworld, hsends, Tariff.credit_append, ← hsettled.ledger, ← hledger]
    exact hbilled.ledger
  · rw [hworld]
    exact hbilled.terms.trans hterms
  · rw [hcost, hsends, Tariff.bill_append, ← hsettled.ledger, ← hledger]
    exact hbilled.cost _ hsettled.cost

theorem after_settled (hexact : scenario.fleet.Exact) {seed : Int} {state : σ} {n : Nat}
    {loop : Loop ρ σ}
    (h : Loop.after .fin generator scenario selector (.start generator scenario seed state) n =
      .ok loop) : Settled scenario loop := by
  induction n generalizing loop with
  | zero =>
    cases h
    exact start_settled seed state
  | succ n ih =>
    obtain ⟨before, hbefore, hstep⟩ := bind_eq_ok_iff.mp h
    exact step_settled hexact (ih hbefore) hstep

/-- The cost of a run is, summed over its links, the price of every send that found the allowance
spent. What was sent is on the accounts at the end, and their overage is the overage they started
with, the cost, and what was not billed. -/
theorem run_cost (hexact : scenario.fleet.Exact) {s : σ} {seed : Int} {result : RunResult}
    (h : run .fin generator scenario selector s seed = .ok result) :
    ∃ state steps loop, selector.reset s = .ok state ∧ scenario.steps = .ok steps ∧
      Loop.after .fin generator scenario selector (.start generator scenario seed state)
        steps.toNat = .ok loop ∧ loop.result = result ∧
      let sends := result.sends scenario
      let ledger := scenario.fleet.ledger
      result.cost = .fin (Tariff.bill ledger sends) ∧
      loop.world.scene.fleet.ledger = Tariff.credit ledger sends ∧
      Tariff.overage loop.world.scene.fleet.ledger =
        Tariff.overage ledger + Tariff.bill ledger sends + Tariff.unbilled ledger sends := by
  obtain ⟨state, hstate, h⟩ := bind_eq_ok_iff.mp h
  obtain ⟨steps, hsteps, h⟩ := bind_eq_ok_iff.mp h
  obtain ⟨loop, hloop, h⟩ := bind_eq_ok_iff.mp h
  cases h
  have hsettled := after_settled hexact hloop
  refine ⟨state, steps, loop, hstate, hsteps, hloop, rfl, hsettled.cost, hsettled.ledger, ?_⟩
  rw [hsettled.ledger]
  exact Tariff.overage_credit _ _

end Runs

namespace Sample

/-- All traffic takes the metered link, and uses three quarters of its allowance in a step. -/
def squeeze (durationS : Int) : Scenario := { scenario [] with
  fleet := ⟨.ofEntries [("fiber0", fiberModel "fiber0"), ("lte0", lteModel "lte0" (.fin 2))]⟩
  trafficBytesPerS := .ofEntries [("bulk", 50000000)]
  durationS := durationS }

theorem squeeze_exact (durationS : Int) : (squeeze durationS).fleet.Exact := by
  intro item hitem
  have hitems : (squeeze durationS).fleet.terms.items =
      [("fiber0", none, .fin 0), ("lte0", some (.fin 2), .fin 8)] := by rfl
  rw [hitems] at hitem
  rcases List.mem_pair.mp hitem with rfl | rfl
  · refine ⟨?_, 0, rfl⟩
    rintro _ ⟨⟩
  · refine ⟨?_, 8, rfl⟩
    rintro _ ⟨⟩
    exact ⟨2, by norm_num, rfl⟩

end Sample

/-- Two steps carry three gigabytes over an allowance of two: eight is due for the third, and the
cost is nought, since the second step began with allowance left. -/
theorem crossing_is_free : (Sample.squeeze 60).fleet.Exact ∧ ∃ loop,
    Loop.after .fin Sample.draws (Sample.squeeze 60) (staticPriority ["lte0"])
      (.start Sample.draws (Sample.squeeze 60) 0 ()) 2 = .ok loop ∧
    run .fin Sample.draws (Sample.squeeze 60) (staticPriority ["lte0"]) () 0 = .ok loop.result ∧
    loop.result.cost = .fin 0 ∧ Tariff.overage loop.world.scene.fleet.ledger = 8 := by
  obtain ⟨loop, hloop⟩ := isOk_iff.mp (show (Loop.after .fin Sample.draws (Sample.squeeze 60)
    (staticPriority ["lte0"]) (.start Sample.draws (Sample.squeeze 60) 0 ()) 2).isOk = true by
      decide +kernel)
  have hdue : (Loop.after .fin Sample.draws (Sample.squeeze 60) (staticPriority ["lte0"])
      (.start Sample.draws (Sample.squeeze 60) 0 ()) 2).toOption.all (fun loop =>
        loop.result.cost = .fin 0 ∧ Tariff.overage loop.world.scene.fleet.ledger = 8) = true := by
    decide +kernel
  rw [hloop] at hdue
  obtain ⟨hcost, hoverage⟩ := of_decide_eq_true hdue
  refine ⟨Sample.squeeze_exact 60, loop, hloop, ?_, hcost, hoverage⟩
  have hsteps : (Sample.squeeze 60).steps = .ok 2 := by rfl
  exact bind_eq_ok_iff.mpr ⟨(), rfl, bind_eq_ok_iff.mpr ⟨2, hsteps,
    bind_eq_ok_iff.mpr ⟨loop, hloop, rfl⟩⟩⟩

/-- A third step finds the allowance spent, and is billed in full. -/
theorem run_cost_sample : ∃ result,
    run .fin Sample.draws (Sample.squeeze 90) (staticPriority ["lte0"]) () 0 = .ok result ∧
    let sends := result.sends (Sample.squeeze 90)
    sends = [("lte0", 1500000000), ("lte0", 1500000000), ("lte0", 1500000000)] ∧
    result.cost = .fin (Tariff.bill (Sample.squeeze 90).fleet.ledger sends) ∧
    Tariff.bill (Sample.squeeze 90).fleet.ledger sends = 12 ∧
    Tariff.unbilled (Sample.squeeze 90).fleet.ledger sends = 8 := by
  obtain ⟨result, hrun⟩ := isOk_iff.mp (show (run .fin Sample.draws (Sample.squeeze 90)
    (staticPriority ["lte0"]) () 0).isOk = true by decide +kernel)
  have hsends : (run .fin Sample.draws (Sample.squeeze 90) (staticPriority ["lte0"]) () 0
      ).toOption.all (fun result => result.sends (Sample.squeeze 90) =
        [("lte0", 1500000000), ("lte0", 1500000000), ("lte0", 1500000000)]) = true := by
    decide +kernel
  rw [hrun] at hsends
  have hsends := of_decide_eq_true hsends
  obtain ⟨_, _, _, -, -, -, -, hcost, -, -⟩ := run_cost (Sample.squeeze_exact 90) hrun
  refine ⟨result, hrun, hsends, hcost, ?_, ?_⟩
  · rw [hsends]
    decide +kernel
  · rw [hsends]
    decide +kernel

end Pilotfish
