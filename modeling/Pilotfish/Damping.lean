import Pilotfish.Baselines

/-!
# What the dwell time damps

The hysteresis selector is followed over the contexts it is called in. A link it holds was taken in
one of them. Clocks may stand still or go back between contexts.

Results:
1. `next_cases`: a call keeps what is held or sets it to the best link there is.
2. `tookAt_of_held`: what is held since a clock was taken in the context of that clock.
3. `hysteresis_damps`: a live link is left for the best one, and only once the dwell time is over.
-/

namespace Pilotfish
open Python

namespace Hysteresis

/-! ## Runs -/

section Runs
variable (dwellS : Double)

/-- The selector after it was called in some contexts, one after another. -/
def after (start : Hysteresis) (contexts : List SelectorContext) : Hysteresis :=
  Run.run (fun s ctx => ((hysteresis dwellS).call ctx s).2) start contexts

theorem after_concat (start : Hysteresis) (contexts : List SelectorContext)
    (ctx : SelectorContext) :
    after dwellS start (contexts ++ [ctx]) = next dwellS ctx (after dwellS start contexts) := by
  unfold after
  rw [Run.run_append]
  rfl

/-- In this context the choice became the link, and in all that came later it stayed it. -/
def TookAt (start : Hysteresis) (contexts : List SelectorContext) (link : String)
    (taken : SelectorContext) : Prop :=
  ∃ earlier since, contexts = earlier ++ taken :: since ∧
    (after dwellS start earlier).current ≠ some link ∧
    ∀ held, held <+: since → (after dwellS start (earlier ++ taken :: held)).current = some link

end Runs

/-! ## One call -/

section Call
variable {dwellS : Double} {ctx : SelectorContext} {s start : Hysteresis}
  {contexts : List SelectorContext} {link : String}

/-- A call leaves what is held as it is, a link that is observed up. Or it sets it to the best link,
and then a link that was held was not observed up, or was not the best and was held long enough. -/
theorem next_cases (dwellS : Double) (ctx : SelectorContext) (s : Hysteresis) :
    next dwellS ctx s = s ∧ s.current.any (observedUp ctx.evidence) = true ∨
    next dwellS ctx s = ⟨bestOfAll ctx, some ctx.now⟩ ∧ ∀ link, s.current = some link →
      observedUp ctx.evidence link = false ∨
        bestOfAll ctx ≠ some link ∧ dwellS.le (s.elapsed ctx.now) = true := by
  unfold next
  dsimp only
  split_ifs with hfree hlong
  · refine .inr ⟨rfl, ?_⟩
    intro link hlink
    rcases hfree with hnone | hdead
    · cases hlink.symm.trans hnone
    · rw [hlink] at hdead
      exact .inl hdead
  · refine .inr ⟨rfl, ?_⟩
    intro link hlink
    rw [← hlink]
    exact .inr hlong
  · have hlive := (not_or.mp hfree).2
    exact .inl ⟨rfl, Bool.eq_true_of_not_eq_false hlive⟩

/-- What a call sets was not held before. -/
theorem current_ne_of_set (hset : next dwellS ctx s = ⟨bestOfAll ctx, some ctx.now⟩)
    (hwhy : ∀ link, s.current = some link → observedUp ctx.evidence link = false ∨
      bestOfAll ctx ≠ some link ∧ dwellS.le (s.elapsed ctx.now) = true)
    (h : (next dwellS ctx s).current = some link) : s.current ≠ some link := by
  intro hheld
  rw [hset] at h
  rcases hwhy link hheld with hdown | ⟨hother, -⟩
  · have hup := (bestByRtt_mem h).2
    rw [hdown] at hup
    cases hup
  · exact hother h

/-- What was taken and is still held after one more call was taken where it was. -/
theorem TookAt.concat {taken : SelectorContext} (h : TookAt dwellS start contexts link taken)
    (hheld : (after dwellS start (contexts ++ [ctx])).current = some link) :
    TookAt dwellS start (contexts ++ [ctx]) link taken := by
  obtain ⟨earlier, since, rfl, hbefore, hstayed⟩ := h
  refine ⟨earlier, since ++ [ctx], by simp, hbefore, ?_⟩
  intro held hprefix
  rcases List.prefix_concat_iff.mp hprefix with rfl | hprefix
  · simpa using hheld
  · exact hstayed held hprefix

/-- A link that is held was taken in some context, and is held since the clock of that context. -/
theorem tookAt_of_held (hstart : start.current = none)
    (h : (after dwellS start contexts).current = some link) :
    ∃ taken, TookAt dwellS start contexts link taken ∧
      (after dwellS start contexts).since = some taken.now := by
  induction contexts using List.reverseRecOn with
  | nil => cases hstart.symm.trans h
  | append_singleton contexts ctx ih =>
    have hheld := h
    rw [after_concat] at h ⊢
    rcases next_cases dwellS ctx (after dwellS start contexts) with ⟨hkept, -⟩ | ⟨hset, hwhy⟩
    · rw [hkept] at h ⊢
      obtain ⟨taken, htook, hsince⟩ := ih h
      exact ⟨taken, htook.concat hheld, hsince⟩
    · refine ⟨ctx, ⟨contexts, [], rfl, current_ne_of_set hset hwhy h, ?_⟩, ?_⟩
      · intro held hprefix
        rw [List.prefix_nil.mp hprefix]
        exact hheld
      · rw [hset]

end Call

end Hysteresis

/-! ## Moves -/

/-- A live link, and none that is live has a lower latency, or the same and a lower name. -/
def LowestLatency (ctx : SelectorContext) (link : String) : Prop :=
  link ∈ ctx.links.map Prod.fst ∧ observedUp ctx.evidence link = true ∧
    ∀ other ∈ ctx.links.map Prod.fst, observedUp ctx.evidence other = true →
      observedRtt ctx.evidence link ≤ observedRtt ctx.evidence other ∧
        (observedRtt ctx.evidence link = observedRtt ctx.evidence other → link ≤ other)

theorem lowestLatency_of_bestOfAll {ctx : SelectorContext} {link : String}
    (h : bestOfAll ctx = some link) : LowestLatency ctx link := by
  have hmem := bestByRtt_mem h
  rw [List.mem_insertionSort] at hmem
  refine ⟨hmem.1, hmem.2, ?_⟩
  intro other hother hup
  rw [← List.mem_insertionSort (· ≤ ·)] at hother
  have hle := List.le_of_mem_argmin (List.mem_filter.mpr ⟨hother, hup⟩) h
  exact Prod.Lex.le_iff'.mp hle

namespace Hysteresis

section Moves
variable {dwellS : Double} {ctx : SelectorContext} {start : Hysteresis}
  {contexts : List SelectorContext} {link : String}

/-- A link is given up where it is not observed up, or once it was held long enough. -/
theorem down_or_long (hstart : start.current = none)
    (hlink : (after dwellS start contexts).current = some link)
    (hleft : (next dwellS ctx (after dwellS start contexts)).current ≠ some link) :
    observedUp ctx.evidence link = false ∨ ∃ taken, TookAt dwellS start contexts link taken ∧
      dwellS.le (.fin (ctx.now.totalSeconds taken.now)) = true := by
  rcases next_cases dwellS ctx (after dwellS start contexts) with ⟨hkept, -⟩ | ⟨-, hwhy⟩
  · rw [hkept] at hleft
    exact absurd hlink hleft
  · rcases hwhy link hlink with hdown | ⟨-, hlong⟩
    · exact .inl hdown
    · obtain ⟨taken, htook, hsince⟩ := tookAt_of_held hstart hlink
      rw [elapsed, hsince] at hlong
      exact .inr ⟨taken, htook, hlong⟩

/-- A link is given up for no other than the best. -/
theorem lowestLatency_of_moved {s : Hysteresis} {other : String} (hlink : s.current = some link)
    (hne : other ≠ link) (hother : (next dwellS ctx s).current = some other) :
    LowestLatency ctx other := by
  rcases next_cases dwellS ctx s with ⟨hkept, -⟩ | ⟨hset, -⟩
  · rw [hkept, hlink] at hother
    exact absurd (Option.some.inj hother).symm hne
  · rw [hset] at hother
    exact lowestLatency_of_bestOfAll hother

end Moves

end Hysteresis

/-- After a reset and any calls, one more call gives every class what is then held. The link that
was held is given up only where it is not observed up, or was taken in a context at least the dwell
time ago; and while it is observed up, for no link but the one of the lowest latency. -/
theorem hysteresis_damps (dwellS : Double) : ∃ start,
    (∀ s, (hysteresis dwellS).reset s = .ok start) ∧ ∀ contexts ctx,
      let s := Hysteresis.after dwellS start contexts
      let s' := Hysteresis.after dwellS start (contexts ++ [ctx])
      (hysteresis dwellS).call ctx s = (.ok (everyClass ctx s'.current), s') ∧
      ∀ link, s.current = some link →
        (s'.current ≠ some link → observedUp ctx.evidence link = false ∨
          ∃ taken, Hysteresis.TookAt dwellS start contexts link taken ∧
            dwellS.le (.fin (ctx.now.totalSeconds taken.now)) = true) ∧
        (observedUp ctx.evidence link = true → ∀ other, other ≠ link → s'.current = some other →
          LowestLatency ctx other) := by
  refine ⟨{}, fun _ => rfl, ?_⟩
  intro contexts ctx s s'
  have hs' : s' = Hysteresis.next dwellS ctx s := Hysteresis.after_concat dwellS {} contexts ctx
  rw [hs']
  refine ⟨rfl, ?_⟩
  intro link hlink
  refine ⟨fun hleft => Hysteresis.down_or_long rfl hlink hleft, ?_⟩
  intro _ other hne hother
  exact Hysteresis.lowestLatency_of_moved hlink hne hother

namespace Sample

/-- Some links of a site are up, without a latency. -/
def sight (seconds : UInt16) (up : List String) : SelectorContext where
  now := clock seconds
  evidence := ⟨up.map fun linkId => upAt linkId 0⟩
  links := [("fiber0", fiber0), ("lte0", lte0)]
  classes := [("bulk", TrafficClass.ofId "bulk")]
  authorityReachable := true

end Sample

/-- The fiber link comes up after the LTE link was taken, and is moved to when that was held long
enough. -/
theorem hysteresis_damps_sample : ∃ start,
    (∀ s, (hysteresis (.fin 300)).reset s = .ok start) ∧
    let contexts := [Sample.sight 0 ["lte0"], Sample.sight 60 ["fiber0", "lte0"]]
    let ctx := Sample.sight 400 ["fiber0", "lte0"]
    ((hysteresis (.fin 300)).call ctx (Hysteresis.after (.fin 300) start contexts)).1 =
      .ok [("bulk", some "fiber0")] ∧
    LowestLatency ctx "fiber0" ∧
    ∃ taken, Hysteresis.TookAt (.fin 300) start contexts "lte0" taken ∧
      Double.le (.fin 300) (.fin (ctx.now.totalSeconds taken.now)) = true := by
  obtain ⟨start, hreset, hdamps⟩ := hysteresis_damps (.fin 300)
  obtain rfl : start = {} := (Except.ok.inj (hreset {})).symm
  refine ⟨{}, hreset, ?_⟩
  intro contexts ctx
  obtain ⟨hcall, hmoves⟩ := hdamps contexts ctx
  have hheld : (Hysteresis.after (.fin 300) {} contexts).current = some "lte0" := by decide +kernel
  have hnow : (Hysteresis.after (.fin 300) {} (contexts ++ [ctx])).current = some "fiber0" := by
    decide +kernel
  have hup : observedUp ctx.evidence "lte0" = true := by decide +kernel
  obtain ⟨hleft, hbest⟩ := hmoves "lte0" hheld
  refine ⟨?_, hbest hup "fiber0" (by decide) hnow, ?_⟩
  · rw [hcall, hnow]
    rfl
  · rw [hnow] at hleft
    rcases hleft (by decide) with hdown | htook
    · cases hup.symm.trans hdown
    · exact htook

end Pilotfish
