import Pilotfish.Updates

/-!
# What a bundle is after the wire

Instants go on the wire as integers, the floats they have for stamps truncated. What comes back is
the bundle with its instants cut to the second, where the float does not leave the second.

Results:
1. `cut_eq_whole_iff`: which instants come back as their second.
2. `PolicyBundle.fields_of_cut`: what came back is encoded as what was sent.
3. `wire_form_iff`: which bundles come back whole.
-/

namespace Python.DateTime

/-- The instant without its part of a second. -/
def whole (t : DateTime) : DateTime :=
  ⟨t.us / 1000000 * 1000000, by
    have hlo := t.lower
    omega, by
    have hhi := t.upper
    omega⟩

/-- The float of the instant is its second, or is truncated to it. -/
def OnSecond (t : DateTime) : Prop :=
  t.timestamp = (t.us / 1000000 : Int) ∨ 0 ≤ t.us ∧ t.timestamp < (t.us / 1000000 : Int) + 1

/-- The float of an instant may be the next second. -/
theorem timestamp_second (t : DateTime) : ((t.us / 1000000 : Int) : ℚ) ≤ t.timestamp ∧
    t.timestamp ≤ (t.us / 1000000 : Int) + 1 := by
  have hlo := t.lower
  have hhi := t.upper
  have hbelow : (((t.us / 1000000 : Int) * 1000000 : Int) : ℚ) ≤ t.us := by
    exact_mod_cast (by omega)
  have habove : (t.us : ℚ) ≤ (((t.us / 1000000 : Int) * 1000000 + 1000000 : Int) : ℚ) := by
    exact_mod_cast (by omega)
  constructor
  · apply Binary64.le_round (abs_lt_of_calendar (by omega) (by omega))
    push_cast at hbelow ⊢
    linarith
  · rw [← Int.cast_one, ← Int.cast_add]
    apply Binary64.round_le (abs_lt_of_calendar (by omega) (by omega))
    push_cast at habove ⊢
    linarith

theorem seconds_eq_iff (t : DateTime) : t.seconds = t.us / 1000000 ↔ t.OnSecond := by
  obtain ⟨hlo, hhi⟩ := t.timestamp_second
  unfold seconds OnSecond
  generalize t.timestamp = x at hlo hhi
  by_cases hus : 0 ≤ t.us
  · -- from the epoch on the float is rounded down
    have hn : ((0 : Int) : ℚ) ≤ (t.us / 1000000 : Int) := by exact_mod_cast (by omega)
    have hx : 0 ≤ x := le_trans (by exact_mod_cast hn) hlo
    rw [trunc, if_pos hx, Int.floor_eq_iff]
    constructor
    · rintro ⟨-, hlt⟩
      exact .inr ⟨hus, hlt⟩
    · rintro (heq | ⟨-, hlt⟩)
      · exact ⟨hlo, by linarith⟩
      · exact ⟨hlo, hlt⟩
  · -- before it the float is rounded up
    have hn : ((t.us / 1000000 : Int) : ℚ) + 1 ≤ ((0 : Int) : ℚ) := by exact_mod_cast (by omega)
    rw [Int.cast_zero] at hn
    have hiff : trunc x = t.us / 1000000 ↔ x = (t.us / 1000000 : Int) := by
      constructor
      · intro h
        unfold trunc at h
        split_ifs at h with hx
        · rw [Int.floor_eq_iff] at h
          linarith
        · rw [Int.ceil_eq_iff] at h
          exact le_antisymm h.2 hlo
      · intro h
        rw [h, trunc_intCast]
    rw [hiff]
    constructor
    · exact .inl
    · rintro (heq | ⟨hus', -⟩)
      · exact heq
      · exact absurd hus' hus

/-- The instants that come back as their second. -/
theorem cut_eq_whole_iff (t : DateTime) : t.cut = .ok t.whole ↔ t.OnSecond := by
  rw [← seconds_eq_iff, cut, fromtimestamp_int, whole]
  constructor
  · intro h
    exact (mul_right_cancel₀ (by decide) h).symm
  · intro h
    rw [h]

theorem onSecond_of_whole {t : DateTime} {n : Int} (h : t.us = n * 1000000) : t.OnSecond := by
  refine .inl ?_
  rw [timestamp_of_whole h, h, Int.mul_ediv_cancel _ (by decide)]

theorem whole_eq {t : DateTime} (h : t.us % 1000000 = 0) : t.whole = t := by
  apply ext
  exact Int.ediv_mul_cancel (Int.dvd_of_emod_eq_zero h)

end Python.DateTime

namespace Pilotfish
open Python

/-! ## Bundles cut to the second -/

def Rule.whole {S N : Type} : Rule S N → Rule S N
  | directive ruleId linkId reasonText notAfter =>
      directive ruleId linkId reasonText notAfter.whole
  | rule => rule

/-- The bundle with its instants cut to the second. -/
def PolicyBundle.whole {S I N B : Type} (b : PolicyBundle S I N B) : PolicyBundle S I N B :=
  { b with
    issuedAt := b.issuedAt.whole
    notAfter := b.notAfter.whole
    rules := b.rules.map Rule.whole }

theorem Rule.cut_eq_whole_iff {S N : Type} (rule : Rule S N) :
    rule.cut = .ok rule.whole ↔ ∀ i l r t, rule = .directive i l r t → t.OnSecond := by
  cases rule with
  | directive i l r t =>
    have hcut : (Rule.directive i l r t : Rule S N).cut = .ok (Rule.directive i l r t).whole ↔
        t.cut = .ok t.whole := by
      simp only [cut, whole, bind_eq_ok_iff]
      constructor
      · rintro ⟨t', ht', hret⟩
        cases hret
        exact ht'
      · intro ht
        exact ⟨_, ht, rfl⟩
    rw [hcut, DateTime.cut_eq_whole_iff]
    constructor
    · rintro h _ _ _ _ ⟨⟩
      exact h
    · intro h
      exact h i l r t rfl
  | _ => simp [cut, whole]

theorem PolicyBundle.cut_eq_whole_iff (b : PolicyBundle) :
    b.cut = .ok b.whole ↔ ∀ t ∈ b.instants, t.OnSecond := by
  have hrules : b.rules.mapM Rule.cut = .ok (b.rules.map Rule.whole) ↔
      ∀ rule ∈ b.rules, ∀ i l r t, rule = .directive i l r t → t.OnSecond := by
    simp only [mapM_eq_ok_iff, List.forall₂_map_right_iff, List.forall₂_same,
      Rule.cut_eq_whole_iff]
  rw [forall_instants, ← DateTime.cut_eq_whole_iff, ← DateTime.cut_eq_whole_iff, ← hrules]
  constructor
  · intro h
    obtain ⟨hissued, hnot, hrules, -⟩ := cut_eq_ok_iff.mp h
    exact ⟨hissued, hnot, hrules⟩
  · rintro ⟨hissued, hnot, hrules⟩
    exact cut_eq_ok_iff.mpr ⟨hissued, hnot, hrules, rfl⟩

theorem Rule.whole_eq {rule : Rule} (h : ∀ i l r t, rule = .directive i l r t → t.us % 1000000 = 0) :
    rule.whole = rule := by
  cases rule with
  | directive i l r t => rw [whole, DateTime.whole_eq (h i l r t rfl)]
  | _ => rfl

theorem PolicyBundle.whole_eq {b : PolicyBundle} (h : ∀ t ∈ b.instants, t.us % 1000000 = 0) :
    b.whole = b := by
  obtain ⟨hissued, hnot, hrules⟩ := forall_instants.mp h
  have hmap : b.rules.map Rule.whole = b.rules := by
    refine (List.map_congr_left ?_).trans (List.map_id b.rules)
    intro rule hrule
    exact Rule.whole_eq (hrules rule hrule)
  rw [whole, DateTime.whole_eq hissued, DateTime.whole_eq hnot, hmap]

/-! ## Encoding what came back -/

theorem encodeLink_toWire (l : Link) : encodeLink l.toWire = encodeLink l := by
  simp [encodeLink, Link.toWire, encodeList, Function.comp_def]

theorem encodeClass_toWire (c : TrafficClass) : encodeClass c.toWire = encodeClass c := by
  rcases c with ⟨id, rtt, metered, _ | js, enc⟩
  · rfl
  · simp [encodeClass, TrafficClass.toWire, encodeList, Function.comp_def]

theorem encodeRule_cut {r c : Rule} (h : r.cut = .ok c) : encodeRule c.toWire = encodeRule r := by
  cases r with
  | directive i l reason t =>
    obtain ⟨t', ht', hret⟩ := bind_eq_ok_iff.mp h
    cases hret
    simp [encodeRule, Rule.toWire, ts, DateTime.cut_seconds ht']
  | _ =>
    cases h
    rfl

theorem map_encodeRule_cut {rules cs : List Rule} (h : rules.mapM Rule.cut = .ok cs) :
    cs.map (fun r => encodeRule r.toWire) = rules.map encodeRule := by
  have hcut := mapM_eq_ok_iff.mp h
  clear h
  induction hcut with
  | nil => rfl
  | cons hr _ ih => rw [List.map_cons, List.map_cons, encodeRule_cut hr, ih]

/-- A bundle that was read back is encoded as it was sent. -/
theorem PolicyBundle.fields_of_cut {b c : PolicyBundle} (h : b.cut = .ok c) :
    c.toWire.fields = b.fields := by
  obtain ⟨hissued, hnot, hrules, heq⟩ := cut_eq_ok_iff.mp h
  have hlinks : c.links = b.links := by rw [heq]
  have hclasses : c.trafficClasses = b.trafficClasses := by rw [heq]
  simp only [fields, toWire, List.map_map, Function.comp_def, encodeLink_toWire,
    encodeClass_toWire, map_encodeRule_cut hrules, hlinks, hclasses, ts, DateTime.cut_seconds hissued,
    DateTime.cut_seconds hnot]
  rw [heq]
  rfl

/-! ## The trip -/

variable {rt : Runtime}

/-- A bundle comes back with its instants cut to the second, is encoded again as it was, and keeps
its hash. -/
structure PolicyBundle.RoundTrips (rt : Runtime) (b : PolicyBundle) : Prop where
  decoded : decodeBundle rt (.bytes (encodeBundle rt b)) = .ok b.whole.toWire
  encoded : encodeBundle rt b.whole.toWire = encodeBundle rt b
  hash : b.whole.toWire.hash rt = b.hash rt

theorem PolicyBundle.roundTrips_iff (laws : rt.Lawful) (b : PolicyBundle) :
    b.RoundTrips rt ↔ ∀ t ∈ b.instants, t.OnSecond := by
  rw [← cut_eq_whole_iff]
  constructor
  · intro h
    obtain ⟨c, hcut, hc⟩ := map_eq_ok_iff.mp ((decodeBundle_encodeBundle laws b).symm.trans h.decoded)
    rwa [toWire_injective hc] at hcut
  · intro hcut
    have hencoded : encodeBundle rt b.whole.toWire = encodeBundle rt b := by
      rw [encodeBundle, encodeBundle, fields_of_cut hcut]
    refine ⟨?_, hencoded, ?_⟩
    · rw [decodeBundle_encodeBundle laws, hcut]
      rfl
    · rw [hash, hash, hencoded]

/-- A bundle survives the wire exactly when none of its instants leaves its second on the way; then
it comes back as it was if these are whole seconds, and two such bundles with one encoding are
alike but for the parts of seconds. -/
theorem wire_form_iff (laws : rt.Lawful) (b : PolicyBundle) :
    (b.RoundTrips rt ↔ ∀ t ∈ b.instants, t.OnSecond) ∧
    ((∀ t ∈ b.instants, t.us % 1000000 = 0) →
      b.RoundTrips rt ∧ decodeBundle rt (.bytes (encodeBundle rt b)) = .ok b.toWire) ∧
    ∀ b' : PolicyBundle, b.RoundTrips rt → b'.RoundTrips rt →
      encodeBundle rt b = encodeBundle rt b' → b.whole = b'.whole := by
  refine ⟨b.roundTrips_iff laws, ?_, ?_⟩
  · intro hwhole
    have htrip : b.RoundTrips rt := by
      refine (b.roundTrips_iff laws).mpr ?_
      intro t ht
      exact DateTime.onSecond_of_whole (Int.ediv_mul_cancel (Int.dvd_of_emod_eq_zero (hwhole t ht))).symm
    have hdecoded := htrip.decoded
    rw [PolicyBundle.whole_eq hwhole] at hdecoded
    exact ⟨htrip, hdecoded⟩
  · intro b' h h' heq
    have hdecoded := h.decoded
    rw [heq, h'.decoded, Except.ok.injEq] at hdecoded
    exact (PolicyBundle.toWire_injective hdecoded).symm

namespace Sample

/-- A bundle that is valid until an instant. -/
def validTo (t : DateTime) : PolicyBundle := { bundle 1 with notAfter := t }

/-- Half a second before the epoch; it is sent as the epoch. -/
def beforeEpoch : DateTime := ⟨-500000, by decide, by decide⟩

/-- The last microsecond of a second of the year 2603; its float is the next second. -/
def lateInstant : DateTime := ⟨20000000000999999, by decide, by decide⟩

end Sample

/-- Three ways for an instant to leave its second: what is sent for the first cannot even be read. -/
theorem wire_form_leaves_second : ¬(Sample.validTo Sample.lastInstant).RoundTrips standIn ∧
    ¬(Sample.validTo Sample.beforeEpoch).RoundTrips standIn ∧
    ¬(Sample.validTo Sample.lateInstant).RoundTrips standIn := by
  have hleaves (t : DateTime) (hoff : ¬t.OnSecond) : ¬(Sample.validTo t).RoundTrips standIn := by
    intro htrip
    refine hoff (((Sample.validTo t).roundTrips_iff lawful_standIn).mp htrip t ?_)
    simp [PolicyBundle.instants, Sample.validTo]
  unfold DateTime.OnSecond at hleaves
  exact ⟨hleaves _ (by decide +kernel), hleaves _ (by decide +kernel), hleaves _ (by decide +kernel)⟩

/-- The sample bundle is made of whole seconds. -/
theorem wire_form_sample : (Sample.bundle 1).RoundTrips standIn ∧
    decodeBundle standIn (.bytes (encodeBundle standIn (Sample.bundle 1))) =
      .ok (Sample.bundle 1).toWire := by
  have hwhole : ∀ t ∈ (Sample.bundle 1).instants, t.us % 1000000 = 0 := by decide
  exact (wire_form_iff lawful_standIn (Sample.bundle 1)).2.1 hwhole

end Pilotfish
