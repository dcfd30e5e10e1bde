import Pilotfish.Headroom

/-!
# The comparison

Every selector runs every scenario with every seed, and each run leaves a row. A selector is one
object for all the seeds of a scenario, and is reset at the start of each run. The table adds up what
the rows measured, including where the governed path loses.

Results:
1. `total_cells`: what a table shows of a selector, scenario by scenario, adds up to its total.
2. `runSeeds_returns`: the rows of one selector are runs, one for each seed.
3. `compare_settles`: a comparison of fair scenarios returns, finds nothing against the governed
   selector, and finds no selector that serves more than the greedy one.
-/

namespace Pilotfish
open Python

/-! ## Tables -/

/-- What a run measured, and which run it was. -/
structure Row extends RunResult where
  scenario : String
  selector : String
  seed : Int
  stepS : Int

structure ComparisonTable where
  rows : List Row := []

/-- What a table shows of one selector in one scenario. -/
structure Cell where
  violations : Nat
  downtimeS : Int
  refusedS : Int
  flaps : Nat
  degradedS : Int

/-- The values of a list, each where it is first seen. -/
def firstSeen {α : Type} [DecidableEq α] (values : List α) : List α :=
  values.foldl (fun seen value => if value ∈ seen then seen else seen ++ [value]) []

namespace ComparisonTable
variable (table : ComparisonTable)

/-- `_for`. -/
def rowsFor (selector : String) : List Row := table.rows.filter (·.selector = selector)

/-- A measure summed over the rows of a selector. -/
def total {α : Type} [AddCommMonoid α] (measure : Row → α) (selector : String) : α :=
  ((table.rowsFor selector).map measure).sum

def violations : String → Nat := table.total (·.violations.length)

def downtime : String → Int := table.total (·.downtimeS)

def refused : String → Int := table.total (·.refusedS)

def flaps : String → Nat := table.total (·.flaps)

def degraded : String → Int := table.total (·.degradedS)

def selectors : List String := firstSeen (table.rows.map (·.selector))

def scenarios : List String := firstSeen (table.rows.map (·.scenario))

def cellRows (scenario selector : String) : List Row :=
  table.rows.filter fun row => row.scenario = scenario ∧ row.selector = selector

def cell (scenario selector : String) : Cell :=
  let rows := table.cellRows scenario selector
  { violations := (rows.map (·.violations.length)).sum
    downtimeS := (rows.map (·.downtimeS)).sum
    refusedS := (rows.map (·.refusedS)).sum
    flaps := (rows.map (·.flaps)).sum
    degradedS := (rows.map (·.degradedS)).sum }

end ComparisonTable

/-! ## Totals -/

section Totals
variable {κ α β : Type} [DecidableEq κ]

theorem foldl_firstSeen (values : List κ) {seen : List κ} (hseen : seen.Nodup) :
    let all := values.foldl (fun seen value => if value ∈ seen then seen else seen ++ [value]) seen
    all.Nodup ∧ ∀ value, value ∈ all ↔ value ∈ seen ∨ value ∈ values := by
  induction values generalizing seen with
  | nil => exact ⟨hseen, by simp⟩
  | cons first values ih =>
    dsimp only [List.foldl_cons]
    split_ifs with hfirst
    · obtain ⟨hnodup, hmem⟩ := ih hseen
      refine ⟨hnodup, ?_⟩
      intro value
      rw [hmem, List.mem_cons]
      constructor
      · rintro (hold | hnew)
        · exact .inl hold
        · exact .inr (.inr hnew)
      · rintro (hold | rfl | hnew)
        · exact .inl hold
        · exact .inl hfirst
        · exact .inr hnew
    · have hgrown : (seen ++ [first]).Nodup := by
        rw [← List.concat_eq_append]
        exact hseen.concat hfirst
      obtain ⟨hnodup, hmem⟩ := ih hgrown
      refine ⟨hnodup, ?_⟩
      intro value
      rw [hmem, List.mem_append, List.mem_singleton, List.mem_cons, or_assoc]

theorem mem_firstSeen {values : List κ} {value : κ} : value ∈ firstSeen values ↔ value ∈ values :=
  ((foldl_firstSeen values List.nodup_nil).2 value).trans (by simp)

theorem nodup_firstSeen (values : List κ) : (firstSeen values).Nodup :=
  (foldl_firstSeen values List.nodup_nil).1

/-- A sum is the sum over its parts, by a key that is one of some keys. -/
theorem sum_parts [AddCommMonoid β] (key : α → κ) (f : α → β) {keys : List κ} (hkeys : keys.Nodup)
    {xs : List α} (hcover : ∀ x ∈ xs, key x ∈ keys) : (xs.map f).sum =
      (keys.map fun k => ((xs.filter fun x => key x = k).map f).sum).sum := by
  induction xs with
  | nil => simp
  | cons x xs ih =>
    obtain ⟨hx, hrest⟩ := List.forall_mem_cons.mp hcover
    have hpart (k : κ) : (((x :: xs).filter fun x => key x = k).map f).sum =
        (if key x = k then f x else 0) + ((xs.filter fun x => key x = k).map f).sum := by
      by_cases hk : key x = k
      · simp [hk]
      · simp [hk]
    have hone : (keys.map fun k => if key x = k then f x else 0).sum = f x := by
      rw [List.sum_map_eq_nsmul_single (key x), List.count_eq_one_of_mem hkeys hx, if_pos rfl, one_smul]
      intro k hk _
      exact if_neg hk.symm
    simp only [hpart]
    rw [List.sum_map_add, hone, ← ih hrest, List.map_cons, List.sum_cons]

end Totals

/-- What a table adds up for a selector is what it adds up for it in each of its scenarios. -/
theorem total_cells {α : Type} [AddCommMonoid α] (table : ComparisonTable) (measure : Row → α)
    (selector : String) : table.total measure selector =
      (table.scenarios.map fun scenario =>
        ((table.cellRows scenario selector).map measure).sum).sum := by
  have hcover : ∀ row ∈ table.rowsFor selector, row.scenario ∈ table.scenarios := by
    intro row hrow
    exact mem_firstSeen.mpr (List.mem_map_of_mem (List.mem_filter.mp hrow).1)
  rw [ComparisonTable.total, sum_parts (·.scenario) measure (nodup_firstSeen _) hcover]
  simp only [ComparisonTable.rowsFor, ComparisonTable.cellRows, List.filter_filter, Bool.decide_and]
  rfl

/-! ## Runs of the comparison -/

/-- A selector, and the state it is in. -/
structure Contender where
  {σ : Type}
  selector : Selector σ
  state : σ

section Compare
variable (rd : ℚ → Double) {ρ : Type} (generator : Random ρ)

/-- A run, with the state it leaves its selector in. -/
def runOn {σ : Type} (scenario : Scenario) (selector : Selector σ) (s : σ) (seed : Int) :
    Except Exc (RunResult × σ) := do
  let state ← selector.reset s
  let steps ← scenario.steps
  let loop ← Loop.after rd generator scenario selector (.start generator scenario seed state)
    steps.toNat
  return (loop.result, loop.selector)

/-- The rows of one selector. -/
def runSeeds {σ : Type} (scenario : NamedScenario) (name : String) (selector : Selector σ) :
    List Int → σ → Except Exc (List Row)
  | [], _ => .ok []
  | seed :: seeds, s => do
      let (result, state) ← runOn rd generator scenario.toScenario selector s seed
      let more ← runSeeds scenario name selector seeds state
      return ⟨result, scenario.name, name, seed, scenario.stepS⟩ :: more

/-- The rows of one scenario. -/
def runScenario (seeds : List Int)
    (selectors : NamedScenario → Except Exc (List (String × Contender)))
    (scenario : NamedScenario) : Except Exc (List Row) :=
  match selectors scenario with
  | .error e => .error e
  | .ok built => do
      let rows ← built.mapM fun (name, contender) =>
        runSeeds rd generator scenario name contender.selector seeds contender.state
      return rows.flatten

def compare (scenarios : List NamedScenario) (seeds : List Int)
    (selectors : NamedScenario → Except Exc (List (String × Contender))) :
    Except Exc ComparisonTable := do
  let rows ← scenarios.mapM (runScenario rd generator seeds selectors)
  return ⟨rows.flatten⟩

end Compare

/-- The order of the selector that goes by a list. -/
def listedOrder : List String := ["fiber0", "lte0", "sat0", "fso0"]

/-- The four selectors, which are built anew for every scenario. -/
def defaultSelectors {rt : Runtime} (authorityKey siteKey : rt.PrivateKey)
    (undeclared : Undeclared) (scenario : NamedScenario) :
    Except Exc (List (String × Contender)) :=
  match Governed.reset authorityKey siteKey scenario.bundle scenario.siteId with
  | .error e => .error e
  | .ok start => .ok [
      ("greedy", ⟨greedy, ()⟩),
      ("static_priority", ⟨staticPriority listedOrder, ()⟩),
      ("hysteresis", ⟨hysteresis (.fin 300), {}⟩),
      ("governed",
        ⟨governed authorityKey siteKey scenario.bundle scenario.siteId undeclared, start⟩)]

/-! ## Rows that are runs -/

section Rows
variable {rd : ℚ → Double} {ρ : Type} {generator : Random ρ} {σ : Type}

theorem runOn_of_run {scenario : Scenario} {selector : Selector σ} {s : σ} {seed : Int}
    {result : RunResult} (h : run rd generator scenario selector s seed = .ok result) :
    ∃ state, runOn rd generator scenario selector s seed = .ok (result, state) := by
  obtain ⟨state, hstate, h⟩ := bind_eq_ok_iff.mp h
  obtain ⟨steps, hsteps, h⟩ := bind_eq_ok_iff.mp h
  obtain ⟨loop, hloop, h⟩ := bind_eq_ok_iff.mp h
  cases h
  exact ⟨loop.selector, bind_eq_ok_iff.mpr ⟨state, hstate, bind_eq_ok_iff.mpr ⟨steps, hsteps,
    bind_eq_ok_iff.mpr ⟨loop, hloop, rfl⟩⟩⟩⟩

/-- A row is a run of its selector with its seed, from whatever state the selector was in. -/
def Row.IsRun (rd : ℚ → Double) (generator : Random ρ) (scenario : NamedScenario) (name : String)
    (selector : Selector σ) (seed : Int) (row : Row) : Prop :=
  row.selector = name ∧ ∃ s, run rd generator scenario.toScenario selector s seed = .ok row.toRunResult

/-- Where every run returns, a selector has a row for every seed. -/
theorem runSeeds_returns {scenario : NamedScenario} {selector : Selector σ}
    (hreturns : ∀ s seed, ∃ result,
      run rd generator scenario.toScenario selector s seed = .ok result)
    (name : String) (seeds : List Int) (s : σ) : ∃ rows,
      runSeeds rd generator scenario name selector seeds s = .ok rows ∧
      List.Forall₂ (Row.IsRun rd generator scenario name selector) seeds rows := by
  induction seeds generalizing s with
  | nil => exact ⟨[], rfl, .nil⟩
  | cons seed seeds ih =>
    obtain ⟨result, hrun⟩ := hreturns s seed
    obtain ⟨state, hrunOn⟩ := runOn_of_run hrun
    obtain ⟨rows, hrows, hruns⟩ := ih state
    exact ⟨_, bind_eq_ok_iff.mpr ⟨_, hrunOn, bind_eq_ok_iff.mpr ⟨rows, hrows, rfl⟩⟩,
      .cons ⟨rfl, s, hrun⟩ hruns⟩

variable {scenario : NamedScenario} {name : String} {selector : Selector σ} {seeds : List Int}
  {rows : List Row}

theorem named_of_isRun (h : List.Forall₂ (Row.IsRun rd generator scenario name selector) seeds rows) :
    ∀ row ∈ rows, row.selector = name := by
  intro row hrow
  obtain ⟨place, hplace, rfl⟩ := List.getElem_of_mem hrow
  exact ((List.forall₂_iff_get.mp h).2 place (by rw [h.length_eq]; exact hplace) hplace).1

theorem run_of_isRun (h : List.Forall₂ (Row.IsRun rd generator scenario name selector) seeds rows) :
    ∀ row ∈ rows, ∃ s seed,
      run rd generator scenario.toScenario selector s seed = .ok row.toRunResult := by
  intro row hrow
  obtain ⟨place, hplace, rfl⟩ := List.getElem_of_mem hrow
  obtain ⟨s, hrun⟩ :=
    ((List.forall₂_iff_get.mp h).2 place (by rw [h.length_eq]; exact hplace) hplace).2
  exact ⟨s, _, hrun⟩

end Rows

/-! ## What the comparison comes to -/

/-- A scenario that all selectors can run, and whose policy governs its links and its traffic. -/
structure NamedScenario.Fair (scenario : NamedScenario) : Prop where
  sound : scenario.toScenario.Sound
  governable : ∃ validity, scenario.toScenario.Governable validity
  benign : ∃ validity, scenario.toScenario.Benign .fin validity
  roomy : scenario.toScenario.Roomy
  listed : ∀ linkId ∈ listedOrder, ∃ link, scenario.links.get? linkId = some link
  kept : scenario.toScenario.InContact ∨ scenario.toScenario.Spare

section Settled
variable {rt : Runtime} (laws : rt.Lawful) {ρ : Type} {generator : Random ρ}
  {scenario : NamedScenario} {authorityKey siteKey : rt.PrivateKey} {siteId : String}
  {undeclared : Undeclared}

include laws in
/-- A governed run of a fair scenario finds nothing, and is free unless it was degraded. -/
theorem governed_fair (hfair : scenario.Fair) {s : Governed rt} {seed : Int} {result : RunResult}
    (h : run .fin generator scenario.toScenario
      (governed authorityKey siteKey scenario.bundle siteId undeclared) s seed = .ok result) :
    result.violations = [] ∧ (result.degradedS = 0 → result.cost = .fin 0) := by
  obtain ⟨validity, hbenign⟩ := hfair.benign
  obtain ⟨start, steps, loop, hstart, hsteps, hloop, rfl⟩ := after_of_run h
  refine ⟨?_, fun hnever => (costs_nothing laws hfair.roomy hstart hloop hnever).1⟩
  rcases hfair.kept with hkept | hspare
  · obtain ⟨floor, hclean⟩ := after_clean laws hbenign hkept hstart
    exact (hclean _ loop hloop).blameless.violations
  · exact (after_spared laws hbenign hspare hfair.roomy.exact hfair.roomy.forward hsteps hstart
      le_rfl hloop).violations

/-- Seed by seed the greedy selector leaves the least unserved. -/
theorem unserved_rows (hfair : scenario.Fair) {σ : Type} {selector : Selector σ}
    (hsighted : Sighted selector) {name : String} {seeds : List Int} {best rows : List Row}
    (hbest : List.Forall₂ (Row.IsRun .fin generator scenario "greedy" greedy) seeds best)
    (h : List.Forall₂ (Row.IsRun .fin generator scenario name selector) seeds rows) :
    (best.map (·.unservedS)).sum ≤ (rows.map (·.unservedS)).sum := by
  induction hbest generalizing rows with
  | nil =>
    cases h
    exact le_rfl
  | cons hfirst _ ih =>
    cases h with
    | cons hfirst' hrest' =>
      obtain ⟨-, s, hrun⟩ := hfirst
      obtain ⟨-, s', hrun'⟩ := hfirst'
      obtain ⟨⟨⟩, steps, bestLoop, -, hsteps, hbestLoop, hresult⟩ := after_of_run hrun
      obtain ⟨state, steps', loop, -, hsteps', hloop, hresult'⟩ := after_of_run hrun'
      obtain rfl : steps = steps' := Except.ok.inj (hsteps.symm.trans hsteps')
      have hle := unserved_le hsighted hfair.sound.keyed hfair.sound.forward.le hbestLoop hloop
      rw [hresult, hresult'] at hle
      rw [List.map_cons, List.map_cons, List.sum_cons, List.sum_cons]
      exact add_le_add hle (ih hrest')

/-- What the comparison is to show: the governed selector is never at fault, and free where it was
not degraded, and none of the four selectors serves more than the greedy one. -/
structure Shown (table : ComparisonTable) : Prop where
  faultless : ∀ row ∈ table.rowsFor "governed",
    row.violations = [] ∧ (row.degradedS = 0 → row.cost = .fin 0)
  unbeaten : ∀ name ∈ ["greedy", "static_priority", "hysteresis", "governed"],
    table.total (·.unservedS) "greedy" ≤ table.total (·.unservedS) name

theorem shown_append {rows later : List Row} (h : Shown ⟨rows⟩) (h' : Shown ⟨later⟩) :
    Shown ⟨rows ++ later⟩ := by
  have htotal (name : String) : (ComparisonTable.mk (rows ++ later)).total (·.unservedS) name =
      (ComparisonTable.mk rows).total (·.unservedS) name +
        (ComparisonTable.mk later).total (·.unservedS) name := by
    simp [ComparisonTable.total, ComparisonTable.rowsFor]
  refine ⟨?_, ?_⟩
  · intro row hrow
    rw [ComparisonTable.rowsFor, List.filter_append] at hrow
    exact (List.mem_append.mp hrow).elim (h.faultless row) (h'.faultless row)
  · intro name hname
    rw [htotal, htotal]
    exact add_le_add (h.unbeaten name hname) (h'.unbeaten name hname)

theorem filter_named {name : String} {rows : List Row} (h : ∀ row ∈ rows, row.selector = name)
    (name' : String) : rows.filter (·.selector = name') = if name = name' then rows else [] := by
  split_ifs with hname
  · exact List.filter_eq_self.mpr fun row hrow => decide_eq_true ((h row hrow).trans hname)
  · exact List.filter_eq_nil_iff.mpr fun row hrow heq =>
      hname ((h row hrow).symm.trans (of_decide_eq_true heq))

variable (authorityKey siteKey undeclared)

include laws in
/-- All selectors run a fair scenario with all seeds, and their rows are as they should be. -/
theorem runScenario_shown (hdraws : ∀ rng, (generator.random rng).1.IsFinite)
    (hfair : scenario.Fair) (seeds : List Int) : ∃ rows, runScenario .fin generator seeds
      (defaultSelectors authorityKey siteKey undeclared) scenario = .ok rows ∧ Shown ⟨rows⟩ := by
  have hsound := hfair.sound
  obtain ⟨validity, hgovernable⟩ := hfair.governable
  have hgoverned : Serves scenario.toScenario
      (governed authorityKey siteKey scenario.bundle scenario.siteId undeclared)
      (InService scenario.toScenario authorityKey validity) :=
    serves_governed laws hsound.forward hsound.inCalendar hgovernable
  have hlisted := serves_staticPriority hfair.listed
  have hdamped := serves_hysteresis scenario.toScenario (.fin 300)
  obtain ⟨start, hstart, -⟩ : ∃ start, Governed.reset authorityKey siteKey scenario.bundle
      scenario.siteId = .ok start ∧ _ := reset_serves laws hgovernable
  have hcompletes {σ : Type} {selector : Selector σ} {Ready : Nat → σ → Prop}
      (hserves : Serves scenario.toScenario selector Ready) :=
    run_completes noOverflow_exact hdraws hsound hserves
  obtain ⟨best, hbest, hbestRuns⟩ :=
    runSeeds_returns (hcompletes (serves_greedy _)) "greedy" seeds ()
  obtain ⟨listed, hlistedRows, hlistedRuns⟩ :=
    runSeeds_returns (hcompletes hlisted) "static_priority" seeds ()
  obtain ⟨damped, hdampedRows, hdampedRuns⟩ :=
    runSeeds_returns (hcompletes hdamped) "hysteresis" seeds {}
  obtain ⟨rows, hrows, hruns⟩ := runSeeds_returns (hcompletes hgoverned) "governed" seeds start
  have hparts (name : String) : (ComparisonTable.mk [best, listed, damped, rows].flatten).rowsFor name =
      (if "greedy" = name then best else []) ++ ((if "static_priority" = name then listed else []) ++
        ((if "hysteresis" = name then damped else []) ++ if "governed" = name then rows else [])) := by
    simp only [ComparisonTable.rowsFor, List.flatten_cons, List.flatten_nil, List.append_nil,
      List.filter_append, filter_named (named_of_isRun hbestRuns),
      filter_named (named_of_isRun hlistedRuns), filter_named (named_of_isRun hdampedRuns),
      filter_named (named_of_isRun hruns)]
  refine ⟨[best, listed, damped, rows].flatten, ?_, ?_, ?_⟩
  · unfold runScenario defaultSelectors
    rw [hstart]
    simp only [List.mapM_cons, List.mapM_nil, hbest, hlistedRows, hdampedRows, hrows]
    rfl
  · intro row hrow
    rw [hparts] at hrow
    have hgoverned : row ∈ rows := by simpa using hrow
    obtain ⟨s, seed, hrun⟩ := run_of_isRun hruns row hgoverned
    exact governed_fair laws hfair hrun
  · intro name hname
    simp only [List.mem_cons, List.not_mem_nil, or_false] at hname
    unfold ComparisonTable.total
    rw [hparts, hparts]
    rcases hname with rfl | rfl | rfl | rfl
    · exact le_rfl
    · simpa using unserved_rows hfair hlisted.sighted hbestRuns hlistedRuns
    · simpa using unserved_rows hfair hdamped.sighted hbestRuns hdampedRuns
    · simpa using unserved_rows hfair hgoverned.sighted hbestRuns hruns

include laws in
theorem runScenarios_shown (hdraws : ∀ rng, (generator.random rng).1.IsFinite)
    {scenarios : List NamedScenario} (hfair : ∀ scenario ∈ scenarios, scenario.Fair)
    (seeds : List Int) : ∃ rows, scenarios.mapM (runScenario .fin generator seeds
      (defaultSelectors authorityKey siteKey undeclared)) = .ok rows ∧ Shown ⟨rows.flatten⟩ := by
  induction scenarios with
  | nil => exact ⟨[], rfl, nofun, fun _ _ => le_rfl⟩
  | cons scenario scenarios ih =>
    obtain ⟨hfirst, hrest⟩ := List.forall_mem_cons.mp hfair
    obtain ⟨rows, hrows, hshown⟩ :=
      runScenario_shown laws authorityKey siteKey undeclared hdraws hfirst seeds
    obtain ⟨later, hlater, hshown'⟩ := ih hrest
    refine ⟨rows :: later, ?_, shown_append hshown hshown'⟩
    rw [List.mapM_cons, hrows, hlater]
    rfl

include laws in
/-- A comparison of fair scenarios returns, with whatever seeds and whatever is drawn. Its table finds
nothing against the governed selector, has a cost for it only where it was degraded, and no selector
with fewer seconds without a link than the greedy one. -/
theorem compare_settles (hdraws : ∀ rng, (generator.random rng).1.IsFinite)
    {scenarios : List NamedScenario} (hfair : ∀ scenario ∈ scenarios, scenario.Fair)
    (seeds : List Int) : ∃ table, compare .fin generator scenarios seeds
      (defaultSelectors authorityKey siteKey undeclared) = .ok table ∧
    table.violations "governed" = 0 ∧
    (∀ row ∈ table.rowsFor "governed", row.degradedS = 0 → row.cost = .fin 0) ∧
    ∀ name ∈ ["greedy", "static_priority", "hysteresis", "governed"],
      table.downtime "greedy" + table.refused "greedy" ≤ table.downtime name + table.refused name := by
  obtain ⟨rows, hrows, hshown⟩ :=
    runScenarios_shown laws authorityKey siteKey undeclared hdraws hfair seeds
  have hunserved (table : ComparisonTable) (name : String) :
      table.downtime name + table.refused name = table.total (·.unservedS) name :=
    List.sum_map_add.symm
  refine ⟨_, bind_eq_ok_iff.mpr ⟨rows, hrows, rfl⟩, ?_, fun row hrow => (hshown.faultless row hrow).2,
    ?_⟩
  · refine List.sum_eq_zero ?_
    intro count hcount
    obtain ⟨row, hrow, rfl⟩ := List.mem_map.mp hcount
    rw [(hshown.faultless row hrow).1]
    rfl
  · intro name hname
    rw [hunserved, hunserved]
    exact hshown.unbeaten name hname

end Settled

namespace Scenarios

theorem fair_shipped {scenario : NamedScenario} (h : scenario ∈ allScenarios) : scenario.Fair := by
  have hlisted : ∀ linkId ∈ listedOrder, ∃ link ∈ links, link.id = linkId := by decide
  have hids : (links.map (·.id)).Nodup := by decide
  have hsite {scenario : NamedScenario} (hlinks : scenario.bundle.links = links) :
      ∀ linkId ∈ listedOrder, ∃ link, scenario.links.get? linkId = some link := by
    intro linkId hlinkId
    obtain ⟨link, hlink, rfl⟩ := hlisted linkId hlinkId
    exact ⟨link, links_get? (hlinks ▸ hids) (hlinks ▸ hlink)⟩
  refine ⟨sound_shipped h, governable_shipped h, benign_shipped .fin h, roomy_shipped h, ?_, ?_⟩
  · simp only [allScenarios, List.mem_cons, List.not_mem_nil, or_false] at h
    rcases h with rfl | rfl | rfl | rfl | rfl <;> exact hsite rfl
  · simp only [allScenarios, List.mem_cons, List.not_mem_nil, or_false] at h
    rcases h with rfl | rfl | rfl | rfl | rfl
    · exact .inl (shipped_of_inContact (by simp [inContact])).2
    · exact .inl (shipped_of_inContact (by simp [inContact])).2
    · exact .inl (shipped_of_inContact (by simp [inContact])).2
    · exact .inl (shipped_of_inContact (by simp [inContact])).2
    · exact .inr spare_blackout

end Scenarios

/-- The comparison of the shipped scenarios, with three seeds. -/
theorem compare_settles_sample : ∃ table, compare .fin Sample.halves Scenarios.allScenarios [0, 1, 2]
      (defaultSelectors Sample.signer.key Sample.siteKey Sample.undeclared) = .ok table ∧
    table.violations "governed" = 0 := by
  obtain ⟨table, htable, hviolations, -⟩ := compare_settles lawful_standIn Sample.signer.key
    Sample.siteKey Sample.undeclared Sample.finite_halves
    (fun _ hscenario => Scenarios.fair_shipped hscenario) [0, 1, 2]
  exact ⟨table, htable, hviolations⟩

end Pilotfish
