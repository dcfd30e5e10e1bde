import Pilotfish.WireForm

/-!
# From the authority to the site

A bundle its authority published is delivered to a site that trusts it, before it expires and under
a nonce and a sequence that are new. What can still keep it from being accepted are the instants.

Results:
1. `seconds_le_horizon`: a stamp that is sent as its second is not refused for being ahead.
2. `accepted_intact_iff`: which publications are accepted, keep their hash and govern.
-/

namespace Pilotfish
open Python

variable {rt : Runtime}

/-- Of an authority the site trusts, under a nonce and a sequence that are new, stamped no further
ahead than the allowance, unexpired, and over a mark that can be committed. -/
structure Publication (signer : BundleSigner rt) (s : BundleStore rt) (epochs : EpochStore)
    (faults : EpochFaults) (bundle : PolicyBundle) (issue : DateTime) (nonce : Bytes)
    (now : DateTime) : Prop where
  trustedKey : s.trustedKey = rt.publicKey signer.key
  expectedIssuer : s.expectedIssuer = signer.issuer
  authority : bundle.authorityId = signer.issuer
  length : nonce.length = nonceBytes
  unseen : s.seenNonces.any (·.eq (.bytes nonce)) = false
  newer : s.sequence.lt (.int bundle.sequence) = .ok true
  committed : (epochs.commit faults (.int bundle.sequence)).1 = .ok ()
  stamped : issue.whole.us ≤ now.us + 120 * 1000000
  unexpired : now.us < bundle.notAfter.whole.us

/-- It is accepted, keeps its hash, and governs to the second in which it expires. -/
def AcceptedIntact (signer : BundleSigner rt) (s : BundleStore rt) (epochs : EpochStore)
    (faults : EpochFaults) (bundle : PolicyBundle) (issue : DateTime) (nonce : Bytes)
    (now : DateTime) : Prop :=
  ∃ envelopeBytes w s' epochs', signer.publish bundle issue nonce = .ok envelopeBytes ∧
    s.accept epochs faults envelopeBytes now = (.ok w, s', epochs') ∧
    w.hash rt = bundle.hash rt ∧
    ∀ t : DateTime, t.us < bundle.notAfter.whole.us → s'.current t = (w, false)

/-! ## Instants -/

/-- An instant that can be read back is not read as one before its second. -/
theorem whole_le_cut {t c : DateTime} (h : t.cut = .ok c) : t.whole.us ≤ c.us := by
  obtain ⟨hlo, -⟩ := t.timestamp_second
  have hsecond := DateTime.trunc_mono hlo
  rw [DateTime.trunc_intCast] at hsecond
  rw [DateTime.fromtimestamp_int.mp h]
  exact mul_le_mul_of_nonneg_right hsecond (by decide)

/-- The sum of a clock and the allowance is not below a second that is within it. -/
theorem seconds_le_horizon {issue now : DateTime} (hissue : issue.OnSecond)
    (h : issue.whole.us ≤ now.us + 120 * 1000000) : (issue.seconds : ℚ) ≤ horizon now := by
  obtain ⟨hlo, hhi⟩ := issue.seconds_bounds
  rw [← DateTime.seconds_eq_iff] at hissue
  have hus : issue.seconds * 1000000 ≤ now.us + 120 * 1000000 := by
    rw [hissue]
    exact h
  have hle : ((issue.seconds * 1000000 : Int) : ℚ) ≤ (now.us + 120 * 1000000 : Int) := by
    exact_mod_cast hus
  push_cast at hle
  unfold horizon
  apply Binary64.le_round (DateTime.abs_lt_of_calendar hlo hhi)
  have hstamp : ((issue.seconds - 120 : Int) : ℚ) ≤ now.timestamp := by
    apply Binary64.le_round
    · unfold minSecond at hlo
      unfold maxSecond at hhi
      rw [abs_lt]
      constructor <;> omega
    · push_cast
      linarith
  push_cast at hstamp
  unfold maxClockSkewS
  linarith

/-! ## Acceptance -/

/-- Numbers are not what `before` orders. -/
theorem before_int (v : Value) (n : Int) : v.before (.int n) = none := by
  have hplace : (Value.int n).place = none := rfl
  rw [Value.before, hplace]
  cases v.place <;> rfl

/-- A number above another is not at most it. -/
theorem le_of_lt_int {v : Value} {n : Int} (h : v.lt (.int n) = .ok true) :
    (Value.int n).le v = .ok false := by
  obtain ⟨b, hb⟩ := Value.rank_int n
  have hnumber : ∃ x, v.number = some x := by
    cases v with
    | object o =>
      have hlt : (Value.object o).lt (.int n) = ((Value.object o).before (.int n)).elim _ .ok := rfl
      rw [hlt, before_int] at h
      cases h
    | _ => first | exact ⟨_, rfl⟩ | cases h
  obtain ⟨x, hx⟩ := hnumber
  have hnan : v ≠ .float .nan := by
    rintro rfl
    cases h
  obtain ⟨a, ha⟩ := Value.rank_of_number hx hnan
  rw [Value.lt_of_rank ha hb, Except.ok.injEq, decide_eq_true_eq] at h
  rw [Value.le_of_rank hb ha, Except.ok.injEq, decide_eq_false_iff_not, not_le]
  exact h

section Accepted
variable (laws : rt.Lawful) {signer : BundleSigner rt} {s : BundleStore rt} {epochs : EpochStore}
  {faults : EpochFaults} {bundle : PolicyBundle} {issue now : DateTime} {nonce : Bytes}
include laws

/-- What was accepted could be read, and was not stamped past the horizon. -/
theorem readable_of_accepted (h : Publication signer s epochs faults bundle issue nonce now)
    (haccepted : AcceptedIntact signer s epochs faults bundle issue nonce now) :
    issue.seconds ≤ maxSecond ∧ (∀ t ∈ bundle.instants, t.seconds ≤ maxSecond) ∧
      (issue.seconds : ℚ) ≤ horizon now := by
  obtain ⟨envelopeBytes, w, s', epochs', hpublished, haccept, -, -⟩ := haccepted
  obtain ⟨envelope, hadmitted, -⟩ := BundleStore.accept_ok (congrArg Prod.fst haccept)
  obtain ⟨t, c, ht, hc, -, -, hstamped, -⟩ :=
    (admitted_publish laws h.length hpublished h.trustedKey h.expectedIssuer).mp hadmitted
  refine ⟨(DateTime.fromtimestamp_seconds _).mp ⟨t, ht⟩, (bundle.cut_ok_iff).mp ⟨c, hc⟩, ?_⟩
  rwa [DateTime.timestamp_of_whole (DateTime.fromtimestamp_int.mp ht)] at hstamped

/-- A publication is accepted, and intact, exactly when its instants can be read back and the
second that is sent for its stamp is not past the horizon of the site's clock. -/
theorem accepted_intact_iff (h : Publication signer s epochs faults bundle issue nonce now) :
    AcceptedIntact signer s epochs faults bundle issue nonce now ↔
    issue.seconds ≤ maxSecond ∧ (∀ t ∈ bundle.instants, t.seconds ≤ maxSecond) ∧
      (issue.seconds : ℚ) ≤ horizon now := by
  have hpublish : signer.publish bundle issue nonce = .ok _ := publish_ok h.length
  refine ⟨readable_of_accepted laws h, ?_⟩
  rintro ⟨hissue, hinstants, hstamped⟩
  obtain ⟨t, ht⟩ := (DateTime.fromtimestamp_seconds _).mpr hissue
  obtain ⟨c, hc⟩ := (bundle.cut_ok_iff).mpr hinstants
  obtain ⟨-, hnot, -, -⟩ := PolicyBundle.cut_eq_ok_iff.mp hc
  have hexpires : bundle.notAfter.whole.us ≤ c.notAfter.us := whole_le_cut hnot
  rw [← DateTime.timestamp_of_whole (DateTime.fromtimestamp_int.mp ht)] at hstamped
  have hadmitted := (admitted_publish laws h.length hpublish h.trustedKey h.expectedIssuer).mpr
    ⟨t, c, ht, hc, rfl, rfl, hstamped, h.unseen, h.authority, le_of_lt_int h.newer,
      h.unexpired.trans_le hexpires⟩
  have hsequence : c.toWire.sequence = .int bundle.sequence :=
    congrArg Value.int (PolicyBundle.cut_fields hc).2.1
  have haccept := BundleStore.accept_of_admitted hadmitted rfl
    (by rw [hsequence]; exact h.committed)
  refine ⟨_, c.toWire, _, _, hpublish, haccept, ?_, ?_⟩
  · rw [PolicyBundle.hash, PolicyBundle.hash, encodeBundle, encodeBundle,
      PolicyBundle.fields_of_cut hc]
  · intro t' ht'
    exact BundleStore.current_not_degraded.mpr ⟨rfl, ht'.trans_le hexpires⟩

end Accepted

namespace Sample

/-- Half a second after noon. -/
def afterNoon : DateTime := ⟨1787918400500000, by decide, by decide⟩

theorem seconds_afterNoon : afterNoon.seconds = (clock 0).seconds := by decide +kernel

/-- A bundle published then and delivered a minute after noon to a store with nothing accepted. -/
theorem publication (floor : WireBundle) {b : PolicyBundle} (hauthority : b.authorityId = "authority-1")
    (hsequence : b.sequence = 1) (hexpires : (clock 60).us < b.notAfter.whole.us) :
    Publication signer (fresh floor) (.memory (.int (-1))) {} b afterNoon (List.replicate 16 1)
      (clock 60) where
  trustedKey := rfl
  expectedIssuer := rfl
  authority := hauthority
  length := List.length_replicate
  unseen := rfl
  newer := by
    rw [hsequence]
    exact Value.lt_int (-1) 1
  committed := EpochStore.commit_ok rfl (.inl trivial)
  stamped := by decide
  unexpired := hexpires

/-- A bundle that is delivered so, stamped at noon. -/
def delivery (b : PolicyBundle) : Delivery where
  envelopeBytes := encodeEnvelope standIn (signed standIn msgPolicyBundle "authority-1" (clock 0)
    (List.replicate 16 1) (encodeBundle standIn b) signer.key)
  now := clock 60
  faults := {}

section Delivery
variable (floor : WireBundle) {b : PolicyBundle} (hcut : b.cut = .ok b)
  (hauthority : b.authorityId = "authority-1") (hsequence : b.sequence = 1)
  (hexpires : (clock 60).us < b.notAfter.us)
include hcut hauthority hsequence hexpires

theorem admitted_delivery {e : Envelope} {w : WireBundle} :
    (fresh floor).Admitted (delivery b).envelopeBytes (clock 60) e w ↔ w = b.toWire ∧
      e = signed standIn msgPolicyBundle "authority-1" (clock 0) (List.replicate 16 1)
        (encodeBundle standIn b) signer.key := by
  have hpublish : signer.publish b (clock 0) (List.replicate 16 1) =
      .ok (delivery b).envelopeBytes := publish_ok List.length_replicate
  have hadmitted : (fresh floor).Admitted (delivery b).envelopeBytes (clock 60) e w ↔ _ :=
    admitted_publish lawful_standIn List.length_replicate hpublish rfl rfl
  rw [hadmitted]
  constructor
  · rintro ⟨t, c, ht, hc, hw, he, -⟩
    cases (cut_clock 0).symm.trans ht
    cases hcut.symm.trans hc
    exact ⟨hw, he⟩
  · rintro ⟨rfl, rfl⟩
    refine ⟨clock 0, b, cut_clock 0, hcut, rfl, rfl,
      timestamp_cut_le_horizon (by decide) (cut_clock 0), rfl, hauthority, ?_, hexpires⟩
    rw [hsequence]
    exact Value.le_int 1 (-1)

theorem accept_delivery : (fresh floor).accept (.memory (.int (-1))) {} (delivery b).envelopeBytes
    (clock 60) = (.ok b.toWire, (fresh floor).install b.toWire (.bytes (List.replicate 16 1)),
      ((EpochStore.memory (.int (-1))).commit {} (.int b.sequence)).2) :=
  BundleStore.accept_of_admitted ((admitted_delivery floor hcut hauthority hsequence hexpires).mpr
    ⟨rfl, rfl⟩) rfl (EpochStore.commit_ok rfl (.inl trivial))

end Delivery

end Sample

/-- A bundle without an end, as far as the calendar goes, is never accepted. -/
theorem endless_bundle_refused : ∃ start, BundleStore.init (standIn.publicKey Sample.signer.key)
    "authority-1" "site-1" Sample.signedFloor none (.memory (.int (-1))) none = .ok start ∧
    let b := Sample.validTo Sample.lastInstant
    Publication Sample.signer start (.memory (.int (-1))) {} b Sample.afterNoon
      (List.replicate 16 1) (Sample.clock 60) ∧
    ¬AcceptedIntact Sample.signer start (.memory (.int (-1))) {} b Sample.afterNoon
      (List.replicate 16 1) (Sample.clock 60) := by
  have hread : (EpochStore.memory (.int (-1))).read = .ok (.int (-1)) := rfl
  obtain ⟨floor, hinit⟩ := Sample.init_ok hread
  have hpublication := Sample.publication floor (b := Sample.validTo Sample.lastInstant) rfl rfl
    (by decide)
  refine ⟨_, hinit, hpublication, ?_⟩
  intro haccepted
  obtain ⟨-, hinstants, -⟩ := readable_of_accepted lawful_standIn hpublication haccepted
  have hlast : ¬Sample.lastInstant.seconds ≤ maxSecond := by decide +kernel
  exact hlast (hinstants _ (by simp [PolicyBundle.instants, Sample.validTo]))

/-- The sample bundle, published half a second after noon, is. -/
theorem accepted_intact_sample : ∃ start, BundleStore.init (standIn.publicKey Sample.signer.key)
    "authority-1" "site-1" Sample.signedFloor none (.memory (.int (-1))) none = .ok start ∧
    AcceptedIntact Sample.signer start (.memory (.int (-1))) {} (Sample.bundle 1) Sample.afterNoon
      (List.replicate 16 1) (Sample.clock 60) := by
  have hread : (EpochStore.memory (.int (-1))).read = .ok (.int (-1)) := rfl
  obtain ⟨floor, hinit⟩ := Sample.init_ok hread
  have hpublication := Sample.publication floor (b := Sample.bundle 1) rfl rfl (by decide)
  refine ⟨_, hinit, (accepted_intact_iff lawful_standIn hpublication).mpr ⟨?_, ?_, ?_⟩⟩
  · decide +kernel
  · exact (Sample.bundle 1).cut_ok_iff.mp ⟨_, Sample.cut_bundle 1⟩
  · have hon : Sample.afterNoon.OnSecond := by
      unfold DateTime.OnSecond
      decide +kernel
    exact seconds_le_horizon hon hpublication.stamped

end Pilotfish
