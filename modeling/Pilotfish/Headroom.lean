import Pilotfish.CleanRuns

/-!
# Room above the threshold

A policy stops using a metered link at a threshold below its allowance. What is left above that has
to hold the traffic of one step: a step is admitted by what was carried before it, and all classes
may be sent over one link. Where it does, nothing is ever carried beyond an allowance, and nothing
is billed. Arithmetic is exact here.

Results:
1. `carried_below`: an admitted link has carried less than the threshold says.
2. `step_within`: a step that decides under the policy leaves every allowance unexceeded.
3. `costs_nothing`, `run_frugal`: so does a run, and it costs nothing.
4. `run_spared`: a run with allowances for all its traffic violates nothing, even out of contact.
-/

namespace Pilotfish
open Python

/-! ## The traffic of a step -/

/-- The bytes of all classes in a step. -/
def Scenario.load (scenario : Scenario) : Int :=
  (scenario.classes.items.map fun item => scenario.volume item.1).sum

/-- Nothing is sent backwards. -/
structure Scenario.Forward (scenario : Scenario) : Prop where
  stepS : 0 < scenario.stepS
  traffic : ∀ item ∈ scenario.trafficBytesPerS.items, 0 ≤ item.2

section Volumes
variable {scenario : Scenario} (hforward : scenario.Forward) {up : List (String × Bool)}
  {choices : Choices}
include hforward

theorem volume_nonneg (classId : String) : 0 ≤ scenario.volume classId := by
  refine mul_nonneg ?_ hforward.stepS.le
  cases hclass : scenario.trafficBytesPerS.get? classId with
  | none => exact le_rfl
  | some bytes => exact hforward.traffic _ (Dict.get?_eq_some.mp hclass)

theorem load_nonneg : 0 ≤ scenario.load := by
  refine List.sum_nonneg ?_
  intro n hn
  obtain ⟨item, -, rfl⟩ := List.mem_map.mp hn
  exact volume_nonneg hforward item.1

theorem sends_nonneg {send : String × Int} (h : send ∈ scenario.sends up choices) : 0 ≤ send.2 := by
  obtain ⟨⟨classId, linkId⟩, -, hsend⟩ := List.mem_filterMap.mp h
  unfold Scenario.sendOf at hsend
  split at hsend
  · cases hsend
  · split_ifs at hsend
    cases hsend
    exact volume_nonneg hforward _

/-- One link gets no more than is asked of all. -/
theorem sentFor_le (linkId : String) : (Tariff.sentFor linkId (scenario.sends up choices)).sum ≤
    (choices.map fun choice => scenario.volume choice.1).sum := by
  induction choices with
  | nil => exact le_rfl
  | cons choice choices ih =>
    obtain ⟨classId, given⟩ := choice
    have hvolume := volume_nonneg hforward classId
    have hsplit : scenario.sends up ((classId, given) :: choices) =
        (scenario.sendOf up (classId, given)).toList ++ scenario.sends up choices := by
      unfold Scenario.sends
      rw [List.filterMap_cons]
      cases scenario.sendOf up (classId, given) <;> rfl
    have hfirst : (Tariff.sentFor linkId (scenario.sendOf up (classId, given)).toList).sum ≤
        scenario.volume classId := by
      unfold Scenario.sendOf
      cases given with
      | none => exact hvolume
      | some linkId' =>
        dsimp only
        split_ifs
        · rw [Option.toList_some, Tariff.sentFor_single]
          split_ifs
          · simp
          · exact hvolume
        · exact hvolume
    rw [hsplit, Tariff.sentFor_append, List.sum_append, List.map_cons, List.sum_cons]
    exact add_le_add hfirst ih

end Volumes

/-- What is sent over a link was chosen for some class. -/
theorem chosen_of_sent {scenario : Scenario} {up : List (String × Bool)} {choices : Choices}
    {linkId : String} (h : Tariff.sentFor linkId (scenario.sends up choices) ≠ []) :
    ∃ classId, (classId, some linkId) ∈ choices := by
  obtain ⟨n, hn⟩ := List.exists_mem_of_ne_nil _ h
  obtain ⟨⟨linkId', n⟩, hsend, rfl⟩ := List.mem_map.mp hn
  obtain ⟨hsent, hlink⟩ := List.mem_filter.mp hsend
  obtain rfl : linkId' = linkId := of_decide_eq_true hlink
  obtain ⟨⟨classId, given⟩, hchoice, hgiven⟩ := List.mem_filterMap.mp hsent
  cases given with
  | none => cases hgiven
  | some given =>
    dsimp only [Scenario.sendOf] at hgiven
    split_ifs at hgiven
    cases hgiven
    exact ⟨classId, hchoice⟩

section Sent
variable {ρ σ : Type} {rd : ℚ → Double} {generator : Random ρ} {scenario : Scenario}
  {selector : Selector σ} {seed : Int} {state : σ}

/-- Over any link a run has sent at most all its traffic. -/
theorem sent_le (hforward : scenario.Forward) (hsighted : Sighted selector) (linkId : String)
    {n : Nat} {loop : Loop ρ σ}
    (h : Loop.after rd generator scenario selector (.start generator scenario seed state) n =
      .ok loop) :
    (Tariff.sentFor linkId (loop.result.sends scenario)).sum ≤ n * scenario.load := by
  induction n generalizing loop with
  | zero =>
    cases h
    simp [Loop.start, RunResult.sends, Tariff.sentFor]
  | succ n ih =>
    obtain ⟨before, hbefore, hstep⟩ := bind_eq_ok_iff.mp h
    obtain ⟨ctx, world, choices, state', found, fleet, result, hlook, hcall, -, hcarry, rfl⟩ :=
      step_eq_ok hstep
    have hframes : result.frames = before.result.frames := by rw [(carryAll_tallies hcarry).2]
    have hload : (choices.map fun choice => scenario.volume choice.1).sum = scenario.load := by
      have hclasses : choices.map Prod.fst = scenario.classes.items.map Prod.fst := by
        rw [hsighted.classes hcall, (look_ok hlook).2.2.2]
      have hvolumes := congrArg (List.map scenario.volume) hclasses
      rw [List.map_map, List.map_map] at hvolumes
      exact congrArg List.sum hvolumes
    have hsent : (Tariff.sentFor linkId (scenario.sends fleet.upStates choices)).sum ≤
        scenario.load := (sentFor_le hforward linkId).trans_eq hload
    have hearlier := ih hbefore
    unfold RunResult.sends at hearlier ⊢
    dsimp only
    rw [hframes, List.flatMap_append, List.flatMap_singleton, Tariff.sentFor_append, List.sum_append,
      Nat.cast_succ, add_mul, one_mul]
    exact add_le_add hearlier hsent

end Sent

/-! ## Below the threshold -/

section Threshold
variable {ρ : Type} {generator : Random ρ} {rng rng' : ρ} {fleet : LinkFleet}
  {evidence : EvidenceSnapshot} {now : DateTime} {tclass : TrafficClass} {link : Link}
  {rules : List Rule} {ruleId : String} {threshold : Num}

/-- A percentage that is reported below a bound up to a hundred was not cut at a hundred. -/
theorem used_below {used : ℚ} {value : Num}
    (hvalue : value.value = .float (.min (.fin 100) (.fin used)))
    (hbelow : value.toRat < threshold.toRat) (hbound : threshold.toRat ≤ 100) :
    used < threshold.toRat := by
  unfold Double.min at hvalue
  split_ifs at hvalue
  · simpa [Num.toRat, hvalue] using hbelow
  · have hfull : (100 : ℚ) < threshold.toRat := by simpa [Num.toRat, hvalue] using hbelow
    exact absurd hfull (not_lt.mpr hbound)

/-- A metered link that a threshold admits has carried less than that of its allowance. -/
theorem carried_below (hkeyed : fleet.Keyed) (hexact : fleet.Exact)
    (hreported : fleet.step .fin generator now rng = .ok (evidence.observations, rng'))
    {m : LinkModel} (hmodel : fleet.models.get? link.id = some m) {allowance : ℚ}
    (hallowance : m.account.allowance = some allowance)
    (hrule : .quota ruleId link.type threshold ∈ rules) (hbound : threshold.toRat ≤ 100)
    (hadmits : admits rules (evidence.asOf now) now tclass link = true) :
    (m.bytesCarried : ℚ) < threshold.toRat / 100 * allowance := by
  obtain ⟨quotaGb, hquota, rfl⟩ := Option.map_eq_some_iff.mp hallowance
  obtain ⟨q, hq, rfl⟩ := (exactTerms_of_get? hexact hmodel).quota quotaGb hquota
  obtain ⟨o, hlatest, hbelow⟩ := Rule.evaluate_quota.mp (admits_iff.mp hadmits _ hrule)
  obtain ⟨ho, hid, hquantity⟩ :=
    EvidenceSnapshot.mem_candidates.mp (EvidenceSnapshot.latest_mem hlatest)
  obtain ⟨key, m', hkey, hreports⟩ :=
    fleet_reports hreported (EvidenceSnapshot.asOf_observations.mp ho).1
  have hown : key = link.id := by rw [← hkeyed key m' hkey, ← hreports.linkId, hid]
  obtain rfl : m = m' := Option.some.inj (hmodel.symm.trans (hown ▸ hkey))
  obtain ⟨quotaGb, pct, hsame, hpct, hvalue⟩ := hreports.quota hquantity
  obtain rfl := Option.some.inj (hquota.symm.trans hsame)
  rw [quotaUsedPct_fin hq] at hpct
  obtain rfl := Except.ok.inj hpct
  have hused := used_below hvalue hbelow hbound
  have hgb : (0 : ℚ) < GB := by exact_mod_cast (by decide : (0 : Int) < GB)
  rw [div_lt_iff₀ hq, ← mul_div_assoc, div_lt_iff₀ hgb] at hused
  show (m.bytesCarried : ℚ) < threshold.toRat / 100 * (q * GB)
  linarith

end Threshold

/-! ## Runs under the policy -/

/-- Above the threshold at which the policy stops using a link there is room for a step. -/
structure Scenario.Roomy (scenario : Scenario) : Prop where
  forward : scenario.Forward
  keyed : scenario.fleet.Keyed
  exact : scenario.fleet.Exact
  within : Tariff.Within scenario.fleet.ledger
  room : ∀ link ∈ scenario.bundle.links, ∀ m, scenario.fleet.models.get? link.id = some m →
    ∀ allowance, m.account.allowance = some allowance → ∃ ruleId threshold,
      .quota ruleId link.type threshold ∈ scenario.bundle.rules ∧
      (scenario.load : ℚ) ≤ (1 - threshold.toRat / 100) * allowance

theorem account_of_get? {fleet : LinkFleet} {linkId : String} {a : Tariff.Account}
    (h : (linkId, a) ∈ fleet.ledger.items) :
    ∃ m, fleet.models.get? linkId = some m ∧ a = m.account := by
  obtain ⟨⟨key, m⟩, hm, hpair⟩ := List.mem_map.mp h
  cases hpair
  exact ⟨m, Dict.get?_eq_some.mpr hm, rfl⟩

/-- Links on the same terms have the same allowances. -/
theorem allowance_of_terms {fleet fleet' : LinkFleet} (h : fleet.terms = fleet'.terms)
    {linkId : String} {m : LinkModel} (hm : fleet.models.get? linkId = some m) :
    ∃ m', fleet'.models.get? linkId = some m' ∧ m'.account.allowance = m.account.allowance := by
  have hterms : fleet.terms.get? linkId = some m.terms := by
    rw [LinkFleet.terms, Dict.get?_map, hm]
    rfl
  rw [h, LinkFleet.terms, Dict.get?_map] at hterms
  obtain ⟨m', hm', hsame⟩ := Option.map_eq_some_iff.mp hterms
  exact ⟨m', hm', congrArg (Option.map fun quotaGb => exactly quotaGb * GB) (Prod.mk.inj hsame).1⟩

theorem exact_of_terms {fleet fleet' : LinkFleet} (h : fleet.terms = fleet'.terms)
    (hexact : fleet'.Exact) : fleet.Exact := by
  unfold LinkFleet.Exact
  rw [h]
  exact hexact

section Policy
variable {rt : Runtime} (laws : rt.Lawful) {ρ : Type} {generator : Random ρ} {scenario : Scenario}
  {authorityKey siteKey : rt.PrivateKey} {siteId : String}
  {undeclared : Undeclared}

/-- What the policy admits and a step sends over it stays within the allowance. -/
theorem within_of_admitted (hroomy : scenario.Roomy) {b : PolicyBundle}
    (hreissues : Reissues scenario.bundle b) {fleet : LinkFleet} (hkeyed : fleet.Keyed)
    (hterms : fleet.terms = scenario.fleet.terms) {rng rng' : ρ} {evidence : EvidenceSnapshot}
    {now : DateTime}
    (hreported : fleet.step .fin generator now rng = .ok (evidence.observations, rng'))
    {tclass : TrafficClass} {link : Link} (hlink : link ∈ b.links)
    (hadmits : admits b.rules (evidence.asOf now) now tclass link = true) {m : LinkModel}
    (hmodel : fleet.models.get? link.id = some m) {sent : List Int}
    (hsent : sent.sum ≤ scenario.load) : (m.account.after sent).Within := by
  intro allowance hallowance
  change m.account.allowance = some allowance at hallowance
  obtain ⟨m', hmodel', hsame⟩ := allowance_of_terms hterms hmodel
  obtain ⟨ruleId, threshold, hrule, hroom⟩ :=
    hroomy.room link (hreissues.links ▸ hlink) m' hmodel' allowance (hsame.trans hallowance)
  have hexact := exact_of_terms hterms hroomy.exact
  have hload : (0 : ℚ) ≤ scenario.load := by exact_mod_cast load_nonneg hroomy.forward
  have hpositive : 0 < allowance := by
    obtain ⟨quotaGb, hquota, rfl⟩ := Option.map_eq_some_iff.mp hallowance
    obtain ⟨q, hq, rfl⟩ := (exactTerms_of_get? hexact hmodel).quota quotaGb hquota
    exact mul_pos hq (by exact_mod_cast (by decide : (0 : Int) < GB))
  have hbound : threshold.toRat ≤ 100 := by
    have hshare := nonneg_of_mul_nonneg_left (hload.trans hroom) hpositive
    linarith
  have hcarried := carried_below hkeyed hexact hreported hmodel hallowance
    (mem_reissued hreissues.rules hrule rfl) hbound hadmits
  have hsum : ((sent.sum : Int) : ℚ) ≤ scenario.load := by exact_mod_cast hsent
  show ((m.bytesCarried + sent.sum : Int) : ℚ) ≤ allowance
  rw [Int.cast_add]
  linarith

/-- What is carried by decision of the policy exceeds no allowance. -/
theorem carried_within (hroomy : scenario.Roomy) {b : PolicyBundle}
    (hreissues : Reissues scenario.bundle b) {fleet fleet' : LinkFleet} (hkeyed : fleet.Keyed)
    (hterms : fleet.terms = scenario.fleet.terms) {rng rng' : ρ} {ctx : SelectorContext}
    (hreported : fleet.step .fin generator ctx.now rng = .ok (ctx.evidence.observations, rng'))
    (hclasses : ctx.classes = scenario.classes.items) {d : EligibilityDecision} {site : String}
    (hdecide : decide rt b ctx.evidence ctx.now site false = .ok d) {choices : Choices}
    (hchoices : choices = ctx.classes.map fun c => (c.1, choose ctx.evidence d c.1))
    (hwithin : Tariff.Within fleet.ledger) {result result' : RunResult}
    (hcarry : carryAll .fin scenario choices fleet result = .ok (fleet', result')) :
    Tariff.Within fleet'.ledger := by
  have hload : (choices.map fun choice => scenario.volume choice.1).sum = scenario.load := by
    rw [hchoices, List.map_map, hclasses]
    rfl
  intro item hitem
  rw [(carryAll_billed (exact_of_terms hterms hroomy.exact) hcarry).ledger] at hitem
  obtain ⟨⟨linkId, a⟩, ha, rfl⟩ := List.mem_map.mp hitem
  dsimp only
  by_cases hnone : Tariff.sentFor linkId (scenario.sends fleet.upStates choices) = []
  · rw [hnone, Tariff.Account.after_nil]
    exact hwithin _ ha
  · obtain ⟨classId, hchoice⟩ := chosen_of_sent hnone
    rw [hchoices] at hchoice
    obtain ⟨c, -, hpair⟩ := List.mem_map.mp hchoice
    obtain ⟨c', -, link, hlink, rfl, hadmits, -⟩ := choose_admits hdecide (Prod.mk.inj hpair).2
    obtain ⟨m, hmodel, rfl⟩ := account_of_get? ha
    exact within_of_admitted hroomy hreissues hkeyed hterms hreported hlink hadmits hmodel
      ((sentFor_le hroomy.forward link.id).trans_eq hload)

/-- The loop that has exceeded no allowance, unless it was degraded. -/
structure Frugal (scenario : Scenario) (loop : Loop ρ (Governed rt)) : Prop where
  governs : Governs scenario.bundle loop.selector
  degradedS : 0 ≤ loop.result.degradedS
  within : loop.result.degradedS = 0 → Tariff.Within loop.world.scene.fleet.ledger

include laws

theorem step_within (hroomy : scenario.Roomy) {step : Nat} {before after : Loop ρ (Governed rt)}
    (hsettled : Settled scenario before)
    (hsame : before.world.scene.fleet.identities = scenario.fleet.identities)
    (hbefore : Frugal scenario before) (h : before.step .fin generator scenario
      (governed authorityKey siteKey scenario.bundle siteId undeclared) step = .ok after) :
    Frugal scenario after := by
  obtain ⟨ctx, world, choices, state, found, fleet, result, hlook, hcall, -, hcarry, rfl⟩ :=
    step_eq_ok h
  obtain ⟨hkept, b, degraded, site, d, hby, hdecision, hdecide, hchoices⟩ :=
    governs_call laws undeclared ctx hbefore.governs hcall
  obtain ⟨hscene, hreported, -, hclasses⟩ := look_ok hlook
  have hresult : result.degradedS = before.result.degradedS := by rw [(carryAll_tallies hcarry).2]
  have hstepS := hroomy.forward.stepS
  have hflag : (governed authorityKey siteKey scenario.bundle siteId undeclared).lastDegraded state =
      degraded := (call_degraded undeclared ctx hcall hdecision).trans (decide_ok hdecide).2.2.2.2.2.1
  refine ⟨hkept, ?_, ?_⟩
  · dsimp only
    rw [hresult]
    have hearlier := hbefore.degradedS
    split_ifs <;> omega
  · dsimp only
    rw [hresult, hflag]
    intro hnever
    have hearlier := hbefore.degradedS
    cases hby with
    | floor _ =>
      rw [if_pos rfl] at hnever
      omega
    | policy hreissues =>
      rw [if_neg Bool.false_ne_true, add_zero] at hnever
      have hledger : world.scene.fleet.ledger = before.world.scene.fleet.ledger :=
        happenAll_map unseen_account hscene
      have hterms : world.scene.fleet.terms = scenario.fleet.terms :=
        (happenAll_map unseen_terms hscene).trans hsettled.terms
      have hkeyed := keyed_of_identities ((look_identities hlook).trans hsame) hroomy.keyed
      exact carried_within hroomy hreissues hkeyed hterms hreported hclasses hdecide hchoices
        (hledger ▸ hbefore.within hnever) hcarry

theorem after_within (hroomy : scenario.Roomy) {start : Governed rt}
    (hstart : Governed.reset authorityKey siteKey scenario.bundle siteId = .ok start) {seed : Int}
    {n : Nat} {loop : Loop ρ (Governed rt)} (h : Loop.after .fin generator scenario
      (governed authorityKey siteKey scenario.bundle siteId undeclared)
      (.start generator scenario seed start) n = .ok loop) : Frugal scenario loop := by
  induction n generalizing loop with
  | zero =>
    cases h
    exact ⟨governs_reset laws hstart, le_rfl, fun _ => hroomy.within⟩
  | succ n ih =>
    obtain ⟨before, hbefore, hstep⟩ := bind_eq_ok_iff.mp h
    exact step_within laws hroomy (after_settled hroomy.exact hbefore) (after_identities hbefore)
      (ih hbefore) hstep

theorem costs_nothing (hroomy : scenario.Roomy) {start : Governed rt}
    (hstart : Governed.reset authorityKey siteKey scenario.bundle siteId = .ok start) {seed : Int}
    {n : Nat} {loop : Loop ρ (Governed rt)} (h : Loop.after .fin generator scenario
      (governed authorityKey siteKey scenario.bundle siteId undeclared)
      (.start generator scenario seed start) n = .ok loop)
    (hnever : loop.result.degradedS = 0) : loop.result.cost = .fin 0 ∧
    Tariff.Within (Tariff.credit scenario.fleet.ledger (loop.result.sends scenario)) := by
  have hsettled := after_settled hroomy.exact h
  have hwithin := (after_within laws hroomy hstart h).within hnever
  rw [hsettled.ledger] at hwithin
  refine ⟨?_, hwithin⟩
  rw [hsettled.cost, Tariff.bill_of_within ?_ hwithin]
  intro send hsend
  obtain ⟨frame, -, hframe⟩ := List.mem_flatMap.mp hsend
  exact sends_nonneg hroomy.forward hframe

/-- A governed run that was never degraded exceeds no allowance and costs nothing, where every
allowance has room for a step above the threshold of the policy. -/
theorem run_frugal (hroomy : scenario.Roomy) {s : Governed rt} {seed : Int} {result : RunResult}
    (h : run .fin generator scenario
      (governed authorityKey siteKey scenario.bundle siteId undeclared) s seed = .ok result)
    (hnever : result.degradedS = 0) : result.cost = .fin 0 ∧
    Tariff.Within (Tariff.credit scenario.fleet.ledger (result.sends scenario)) := by
  obtain ⟨start, steps, loop, hstart, -, hloop, rfl⟩ := after_of_run h
  exact costs_nothing laws hroomy hstart hloop hnever

end Policy

/-! ## Allowances for all traffic -/

/-- No allowance is used up by all the traffic of a run. -/
def Scenario.Spare (scenario : Scenario) : Prop :=
  ∀ steps, scenario.steps = .ok steps → ∀ item ∈ scenario.fleet.ledger.items, ∀ allowance,
    item.2.allowance = some allowance →
    (item.2.carried : ℚ) + steps.toNat * scenario.load < allowance

section Spare
variable {ρ σ : Type} {generator : Random ρ} {scenario : Scenario} {selector : Selector σ}
  {seed : Int} {state : σ}

/-- Whoever chooses, no step of the run finds an allowance spent. -/
theorem unspent_of_spare (hspare : scenario.Spare) (hexact : scenario.fleet.Exact)
    (hforward : scenario.Forward) (hsighted : Sighted selector) {steps : Int}
    (hsteps : scenario.steps = .ok steps) {n : Nat} (hn : n ≤ steps.toNat) {loop : Loop ρ σ}
    (h : Loop.after .fin generator scenario selector (.start generator scenario seed state) n =
      .ok loop) {ctx : SelectorContext} {world : World ρ}
    (hlook : loop.world.look .fin generator scenario n = .ok (ctx, world)) (linkId : String) :
    world.scene.fleet.spent .fin linkId ≠ .ok true := by
  unfold LinkFleet.spent
  cases hmodel : world.scene.fleet.models.get? linkId with
  | none => exact nofun
  | some m =>
    have hsettled := after_settled hexact h
    have hscene := (look_ok hlook).1
    have hterms : world.scene.fleet.terms = scenario.fleet.terms :=
      (happenAll_map unseen_terms hscene).trans hsettled.terms
    have hledger : world.scene.fleet.ledger =
        Tariff.credit scenario.fleet.ledger (loop.result.sends scenario) :=
      (happenAll_map unseen_account hscene).trans hsettled.ledger
    have haccount : (linkId, m.account) ∈ world.scene.fleet.ledger.items :=
      List.mem_map.mpr ⟨_, Dict.get?_eq_some.mp hmodel, rfl⟩
    rw [hledger] at haccount
    obtain ⟨⟨key, a⟩, ha, hpair⟩ := List.mem_map.mp haccount
    obtain ⟨rfl, hafter⟩ := Prod.mk.inj hpair
    show m.spent .fin ≠ _
    rw [spent_eq (exactTerms_of_get? (exact_of_terms hterms hexact) hmodel), ← hafter]
    intro hspent
    obtain ⟨allowance, hallowance, hreached⟩ :=
      (Option.any_eq_true _ _).mp (Except.ok.inj hspent : (a.after _).spent = true)
    have hroom := hspare steps hsteps _ ha allowance hallowance
    have hsent := sent_le hforward hsighted key h
    have hload := load_nonneg hforward
    have hall : (n : Int) * scenario.load ≤ steps.toNat * scenario.load :=
      mul_le_mul_of_nonneg_right (by exact_mod_cast hn) hload
    have hbound : ((Tariff.sentFor key (loop.result.sends scenario)).sum : ℚ) ≤
        steps.toNat * scenario.load := by exact_mod_cast hsent.trans hall
    have hover := of_decide_eq_true hreached
    rw [Tariff.Account.after, Int.cast_add] at hover
    linarith

end Spare

section Spared
variable {rt : Runtime} (laws : rt.Lawful) {ρ : Type} {generator : Random ρ} {scenario : Scenario}
  {authorityKey siteKey : rt.PrivateKey} {siteId : String} {validity : Int}
  {undeclared : Undeclared}
include laws

theorem after_spared (hbenign : scenario.Benign .fin validity) (hspare : scenario.Spare)
    (hexact : scenario.fleet.Exact) (hforward : scenario.Forward) {steps : Int}
    (hsteps : scenario.steps = .ok steps) {start : Governed rt}
    (hstart : Governed.reset authorityKey siteKey scenario.bundle siteId = .ok start) {seed : Int}
    {n : Nat} (hn : n ≤ steps.toNat) {loop : Loop ρ (Governed rt)}
    (h : Loop.after .fin generator scenario
      (governed authorityKey siteKey scenario.bundle siteId undeclared)
      (.start generator scenario seed start) n = .ok loop) : Blameless scenario .fin loop := by
  induction n generalizing loop with
  | zero =>
    cases h
    exact start_blameless laws hstart
  | succ n ih =>
    obtain ⟨before, hbefore, hstep⟩ := bind_eq_ok_iff.mp h
    refine step_blameless laws hbenign (ih (Nat.le_of_succ_le hn) hbefore) hstep ?_
    intro _ ctx world hlook linkId
    exact unspent_of_spare hspare hexact hforward (sighted_of_shipped (.governed ..)) hsteps
      (Nat.le_of_succ_le hn) hbefore hlook linkId

/-- A governed run of a benign scenario with allowances for all its traffic violates nothing, in
contact and out of it. -/
theorem run_spared (hbenign : scenario.Benign .fin validity) (hspare : scenario.Spare)
    (hexact : scenario.fleet.Exact) (hforward : scenario.Forward) {s : Governed rt} {seed : Int}
    {result : RunResult} (h : run .fin generator scenario
      (governed authorityKey siteKey scenario.bundle siteId undeclared) s seed = .ok result) :
    result.violations = [] := by
  obtain ⟨start, steps, loop, hstart, hsteps, hloop, rfl⟩ := after_of_run h
  exact (after_spared laws hbenign hspare hexact hforward hsteps hstart le_rfl hloop).violations

end Spared

namespace Scenarios

/-! ## The scenarios of the comparison -/

theorem forward_site (b : PolicyBundle) (f : LinkFleet) (events : List Event) :
    Scenario.Forward ⟨b, f, traffic, events, 3600, 30⟩ where
  stepS := (by decide : (0 : Int) < 30)
  traffic := (by decide : ∀ item ∈ traffic.items, 0 ≤ item.2)

theorem load_site (notAfter : DateTime) (f : LinkFleet) (events : List Event) :
    Scenario.load ⟨policy notAfter 120, f, traffic, events, 3600, 30⟩ = 69000000 :=
  (by decide : (30 : Int) * (2 * megabyte + 200000 + 100000) = 69000000)

theorem ledger_fleet (q : ℚ) : (fleet (.fin q)).ledger.items = [
    ("fiber0", ⟨none, 0 / GB, 0⟩),
    ("lte0", ⟨some (q * GB), 8 / GB, 0⟩),
    ("sat0", ⟨some (50 * GB), 3 / GB, 0⟩),
    ("fso0", ⟨none, 0 / GB, 0⟩)] := by
  rw [LinkFleet.ledger, Dict.items_map, fleet_items]
  rfl

theorem exact_fleet {q : ℚ} (hq : 0 < q) : (fleet (.fin q)).Exact := by
  have hfree : ExactTerms (none, .fin 0) := ⟨nofun, 0, rfl⟩
  have hmetered {q : ℚ} (hq : 0 < q) (p : ℚ) : ExactTerms (some (.fin q), .fin p) :=
    ⟨fun quotaGb hquota => ⟨q, hq, (Option.some.inj hquota).symm⟩, p, rfl⟩
  intro item hitem
  obtain ⟨model, hmodel, rfl⟩ := List.mem_map.mp hitem
  rw [fleet_items] at hmodel
  simp only [List.mem_cons, List.not_mem_nil, or_false] at hmodel
  rcases hmodel with rfl | rfl | rfl | rfl
  · exact hfree
  · exact hmetered hq 8
  · exact hmetered (by norm_num) 3
  · exact hfree

/-- Ten per cent of the allowance of the metered link hold a step. -/
theorem roomy_site {q : ℚ} (hq : 69 / 100 ≤ q) (notAfter : DateTime) (events : List Event) :
    Scenario.Roomy ⟨policy notAfter 120, fleet (.fin q), traffic, events, 3600, 30⟩ where
  forward := forward_site _ _ _
  keyed := keyed_fleet _
  exact := exact_fleet (by linarith)
  within := by
    intro item hitem allowance hallowance
    rw [ledger_fleet] at hitem
    simp only [List.mem_cons, List.not_mem_nil, or_false] at hitem
    rcases hitem with rfl | rfl | rfl | rfl <;> cases hallowance
    · have hgb : (GB : ℚ) = 1000000000 := by norm_num [GB]
      rw [hgb, Int.cast_zero]
      linarith
    · norm_num [GB]
  room := by
    intro link hlink m hm allowance hallowance
    have hledger : (link.id, m.account) ∈ (fleet (.fin q)).ledger.items :=
      List.mem_map.mpr ⟨_, Dict.get?_eq_some.mp hm, rfl⟩
    have hlte : Rule.quota "R-QUOTA-LTE" "lte" (.ofRat 90) ∈ rules := by simp [rules]
    have hsat : Rule.quota "R-QUOTA-SAT" "satellite" (.ofRat 95) ∈ rules := by
      simp [rules]
    rw [ledger_fleet] at hledger
    rw [load_site]
    simp only [policy, links, List.mem_cons, List.not_mem_nil, or_false] at hlink
    rcases hlink with rfl | rfl | rfl | rfl
    all_goals
      simp only [fiber0, lte0, sat0, fso0, List.mem_cons, List.not_mem_nil, or_false, Prod.mk.injEq,
        String.reduceEq, false_and, true_and, false_or] at hledger
      rw [hledger] at hallowance
      cases hallowance
    · refine ⟨"R-QUOTA-LTE", .ofRat 90, hlte, ?_⟩
      norm_num [GB]
      linarith
    · refine ⟨"R-QUOTA-SAT", .ofRat 95, hsat, ?_⟩
      norm_num [GB]

/-- A hundred and twenty steps of all traffic are a little more than eight gigabytes. -/
theorem spare_site {q : ℚ} (hq : 9 ≤ q) (notAfter : DateTime) (events : List Event) :
    Scenario.Spare ⟨policy notAfter 120, fleet (.fin q), traffic, events, 3600, 30⟩ := by
  intro steps hsteps item hitem allowance hallowance
  obtain rfl : 120 = steps := Except.ok.inj hsteps
  rw [ledger_fleet] at hitem
  rw [load_site, show (120 : Int).toNat = 120 from rfl]
  simp only [List.mem_cons, List.not_mem_nil, or_false] at hitem
  rcases hitem with rfl | rfl | rfl | rfl <;> cases hallowance
  · norm_num [GB]
    linarith
  · norm_num [GB]

theorem roomy_shipped {scenario : NamedScenario} (h : scenario ∈ allScenarios) :
    scenario.toScenario.Roomy := by
  simp only [allScenarios, List.mem_cons, List.not_mem_nil, or_false] at h
  rcases h with rfl | rfl | rfl | rfl | rfl
  · exact roomy_site (by norm_num) _ _
  · exact roomy_site (by norm_num) _ _
  · exact roomy_site (by norm_num) _ _
  · exact roomy_site (by norm_num) _ _
  · exact roomy_site (by norm_num) _ _

theorem spare_blackout : authorityBlackout.toScenario.Spare := spare_site (by norm_num) _ _

end Scenarios

/-- The run that squeezes the allowance costs nothing. -/
theorem run_frugal_sample : ∃ s result, run .fin Sample.halves Scenarios.quotaSqueeze.toScenario
      (governed Sample.signer.key Sample.siteKey Scenarios.quotaSqueeze.bundle "sim-site"
        Sample.undeclared) s 0 = .ok result ∧ result.cost = .fin 0 := by
  obtain ⟨hshipped, hkept⟩ := Scenarios.shipped_of_inContact (.tail _ (.head _) :
    Scenarios.quotaSqueeze ∈ Scenarios.inContact)
  obtain ⟨validity, hbenign⟩ := Scenarios.benign_shipped .fin hshipped
  obtain ⟨s, result, hrun⟩ := Sample.shipped_run hshipped
  obtain ⟨start, steps, loop, hstart, -, hloop, rfl⟩ := after_of_run hrun
  obtain ⟨floor, hclean⟩ := after_clean lawful_standIn hbenign hkept hstart
  exact ⟨s, _, hrun, (run_frugal lawful_standIn (Scenarios.roomy_shipped hshipped) hrun
    (hclean _ loop hloop).degradedS).1⟩

/-- The run that loses its authority violates nothing. -/
theorem run_spared_sample : ∃ s result, run .fin Sample.halves
      Scenarios.authorityBlackout.toScenario (governed Sample.signer.key Sample.siteKey
        Scenarios.authorityBlackout.bundle "sim-site" Sample.undeclared) s 0 = .ok result ∧
    result.violations = [] := by
  have hshipped : Scenarios.authorityBlackout ∈ Scenarios.allScenarios := by
    simp [Scenarios.allScenarios]
  have hroomy := Scenarios.roomy_shipped hshipped
  obtain ⟨validity, hbenign⟩ := Scenarios.benign_shipped .fin hshipped
  obtain ⟨s, result, hrun⟩ := Sample.shipped_run hshipped
  exact ⟨s, result, hrun, run_spared lawful_standIn hbenign Scenarios.spare_blackout hroomy.exact
    hroomy.forward hrun⟩

end Pilotfish
