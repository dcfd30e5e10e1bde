import Pilotfish.Signer

/-!
# Updates of a running site

An authority publishes one bundle after the other, the nonce argument left out, and one process
is handed them in order. The nonce is then the same every time, and the store has seen it.

Results:
1. `cut_ok_iff`: which bundles can be read from the wire.
2. `not_taken_twice`: a second update is refused, whatever it is.
3. `taken_iff`: a running site takes its authority's updates exactly when there is at most one,
   its instants survive the wire, the nonce is new, and its sequence can be kept for a mark.
-/

namespace Pilotfish
open Python

variable {rt : Runtime}

/-- One publication: what is published, when, and when it is delivered. -/
structure Update where
  bundle : PolicyBundle
  issuedAt : DateTime
  deliveredAt : DateTime

/-- Publish as the command line does, and deliver to the process. -/
def takeUpdate (signer : BundleSigner rt) (s : BundleStore rt) (epochs : EpochStore) (u : Update) :
    Except Exc WireBundle × BundleStore rt × EpochStore :=
  match signer.publish u.bundle u.issuedAt with
  | .error e => (.error e, s, epochs)
  | .ok envelopeBytes => s.accept epochs {} envelopeBytes u.deliveredAt

/-- What each delivery returned or raised, and the store at the end. -/
def takeUpdates (signer : BundleSigner rt) (s : BundleStore rt) (epochs : EpochStore) :
    List Update → List (Except Exc WireBundle) × BundleStore rt
  | [] => ([], s)
  | u :: updates =>
      let (result, s', epochs') := takeUpdate signer s epochs u
      let (results, last) := takeUpdates signer s' epochs' updates
      (result :: results, last)

/-- Every delivery is accepted, and what then governs is the last bundle, as it was read. -/
structure Taken (signer : BundleSigner rt) (s : BundleStore rt) (epochs : EpochStore)
    (updates : List Update) : Prop where
  accepted : ∀ result ∈ (takeUpdates signer s epochs updates).1, ∃ w, result = .ok w
  governs : ∀ u, updates.getLast? = some u → ∃ c, u.bundle.cut = .ok c ∧
    (takeUpdates signer s epochs updates).2.current u.deliveredAt = (c.toWire, false)

/-- The authority the site trusts issues bundles of its own, with increasing sequences above the
store's, each delivered after its issue and before it expires. -/
structure Legitimate (signer : BundleSigner rt) (s : BundleStore rt) (epochs : EpochStore)
    (updates : List Update) : Prop where
  trustedKey : s.trustedKey = rt.publicKey signer.key
  expectedIssuer : s.expectedIssuer = signer.issuer
  mark : ∃ m k, s.sequence = .int m ∧ epochs.read = .ok (.int k) ∧
    List.IsChain (· < ·) (m :: updates.map (·.bundle.sequence))
  authority : ∀ u ∈ updates, u.bundle.authorityId = signer.issuer
  issued : ∀ u ∈ updates, u.issuedAt.us ≤ u.deliveredAt.us
  unexpired : ∀ u ∈ updates, u.deliveredAt.us < u.bundle.notAfter.us

/-! ## Which bundles can be read -/

/-- The instants a bundle carries, those of its directives among them. -/
def PolicyBundle.instants (b : PolicyBundle) : List DateTime :=
  b.issuedAt :: b.notAfter :: b.rules.filterMap fun
    | .directive _ _ _ notAfter => some notAfter
    | _ => none

theorem Rule.mapM_cut_ok_iff {rules : List Rule} : (∃ cs, rules.mapM Rule.cut = .ok cs) ↔
    ∀ rule ∈ rules, ∃ c, rule.cut = .ok c := by
  induction rules with
  | nil => exact ⟨fun _ => by simp, fun _ => ⟨[], rfl⟩⟩
  | cons rule rules ih =>
    simp only [List.mapM_cons, bind_eq_ok_iff, List.forall_mem_cons, ← ih]
    constructor
    · rintro ⟨-, c, hc, cs, hcs, -⟩
      exact ⟨⟨c, hc⟩, cs, hcs⟩
    · rintro ⟨⟨c, hc⟩, cs, hcs⟩
      exact ⟨c :: cs, c, hc, cs, hcs, rfl⟩

/-- The instants of the rules are those of the directives, the one family that carries any. -/
theorem PolicyBundle.forall_instants {b : PolicyBundle} {P : DateTime → Prop} :
    (∀ t ∈ b.instants, P t) ↔ P b.issuedAt ∧ P b.notAfter ∧
      ∀ rule ∈ b.rules, ∀ i l r t, rule = .directive i l r t → P t := by
  simp only [instants, List.forall_mem_cons, List.mem_filterMap]
  refine and_congr_right fun _ => and_congr_right ?_
  intro _
  constructor
  · intro h rule hr i l r t heq
    exact h t ⟨rule, hr, by rw [heq]⟩
  · rintro h t ⟨rule, hr, heq⟩
    cases rule with
    | directive i l r t' =>
      cases heq
      exact h _ hr i l r t rfl
    | _ => cases heq

/-- A bundle can be read unless one of its instants lies past the last second. -/
theorem PolicyBundle.cut_ok_iff (b : PolicyBundle) :
    (∃ c, b.cut = .ok c) ↔ ∀ t ∈ b.instants, t.seconds ≤ maxSecond := by
  have hrule (rule : Rule) : (∃ c, rule.cut = .ok c) ↔
      ∀ i l r t, rule = .directive i l r t → t.seconds ≤ maxSecond := by
    cases rule with
    | directive i l r t =>
      simp only [Rule.cut, bind_eq_ok_iff, Rule.directive.injEq, ← DateTime.fromtimestamp_seconds]
      constructor
      · rintro ⟨-, t', ht, -⟩ - - - _ ⟨-, -, -, rfl⟩
        exact ⟨t', ht⟩
      · intro h
        obtain ⟨t', ht⟩ := h i l r t ⟨rfl, rfl, rfl, rfl⟩
        exact ⟨_, t', ht, rfl⟩
    | _ => simp [Rule.cut]
  have hrules : (∃ cs, b.rules.mapM Rule.cut = .ok cs) ↔
      ∀ rule ∈ b.rules, ∀ i l r t, rule = .directive i l r t → t.seconds ≤ maxSecond := by
    simp only [Rule.mapM_cut_ok_iff, hrule]
  rw [forall_instants, ← hrules, ← DateTime.fromtimestamp_seconds, ← DateTime.fromtimestamp_seconds]
  constructor
  · rintro ⟨c, hc⟩
    obtain ⟨hissued, hnot, hcs, -⟩ := cut_eq_ok_iff.mp hc
    exact ⟨⟨_, hissued⟩, ⟨_, hnot⟩, ⟨_, hcs⟩⟩
  · rintro ⟨⟨i, hi⟩, ⟨n, hn⟩, cs, hcs⟩
    exact ⟨{ b with issuedAt := i, notAfter := n, rules := cs }, cut_eq_ok_iff.mpr ⟨hi, hn, hcs, rfl⟩⟩

/-- The wire does not touch the sequence. -/
theorem sequence_cut {b c : PolicyBundle} (h : b.cut = .ok c) :
    c.toWire.sequence = .int b.sequence := by
  have hsequence := congrArg (fun c : PolicyBundle => c.toWire.sequence)
    (PolicyBundle.cut_eq_ok_iff.mp h).2.2.2
  exact hsequence

/-- The envelope and the bundle can be read, and the bundle is still valid when its end is cut to
the whole second. -/
structure Update.Readable (u : Update) : Prop where
  issued : u.issuedAt.seconds ≤ maxSecond
  instants : ∀ t ∈ u.bundle.instants, t.seconds ≤ maxSecond
  valid : u.deliveredAt.us < u.bundle.notAfter.seconds * 1000000

/-! ## One update -/

/-- What is published when the nonce argument is left out. -/
theorem publish_default (signer : BundleSigner rt) (bundle : PolicyBundle) (issue : DateTime) :
    signer.publish bundle issue = .ok (encodeEnvelope rt (signed rt msgPolicyBundle signer.issuer
      issue defaultNonce (encodeBundle rt bundle) signer.key)) := publish_ok rfl

section One
variable (laws : rt.Lawful) {signer : BundleSigner rt} {s : BundleStore rt} {epochs : EpochStore}
  {u : Update} (hkey : s.trustedKey = rt.publicKey signer.key)
  (hissuer : s.expectedIssuer = signer.issuer)
include laws hkey hissuer

/-- An update that is accepted was readable and came under a new nonce, which is then seen, and
its mark was committed. -/
theorem takeUpdate_ok {w : WireBundle} (h : (takeUpdate signer s epochs u).1 = .ok w) :
    u.Readable ∧ s.seenNonces.any (·.eq (.bytes defaultNonce)) = false ∧
    (epochs.commit {} (.int u.bundle.sequence)).1 = .ok () ∧
    (takeUpdate signer s epochs u).2.1.trustedKey = s.trustedKey ∧
    (takeUpdate signer s epochs u).2.1.expectedIssuer = s.expectedIssuer ∧
    (takeUpdate signer s epochs u).2.1.seenNonces = .bytes defaultNonce :: s.seenNonces := by
  have hpublish := publish_default signer u.bundle u.issuedAt
  simp only [takeUpdate, hpublish] at h ⊢
  obtain ⟨envelope, admitted, -, committed, hafter⟩ := BundleStore.accept_ok h
  obtain ⟨t, c, ht, hc, rfl, rfl, -, hunseen, -, -, hvalid⟩ :=
    (admitted_publish laws rfl hpublish hkey hissuer).mp admitted
  rw [hafter]
  refine ⟨⟨(DateTime.fromtimestamp_seconds _).mp ⟨t, ht⟩,
    (PolicyBundle.cut_ok_iff _).mp ⟨c, hc⟩, ?_⟩, hunseen, sequence_cut hc ▸ committed, rfl, rfl, rfl⟩
  rw [← DateTime.fromtimestamp_int.mp (PolicyBundle.cut_eq_ok_iff.mp hc).2.1]
  exact hvalid

/-- A readable update under a new nonce is accepted, and governs. -/
theorem takeUpdate_of_readable {m k : Int} (hm : s.sequence = .int m) (hlt : m < u.bundle.sequence)
    (hread : epochs.read = .ok (.int k)) (hauthority : u.bundle.authorityId = signer.issuer)
    (hclock : u.issuedAt.us ≤ u.deliveredAt.us) (h : u.Readable)
    (hunseen : s.seenNonces.any (·.eq (.bytes defaultNonce)) = false)
    (hkeep : epochs.Keepable u.bundle.sequence) :
    ∃ c, u.bundle.cut = .ok c ∧ (takeUpdate signer s epochs u).1 = .ok c.toWire ∧
      (takeUpdate signer s epochs u).2.1.current u.deliveredAt = (c.toWire, false) := by
  obtain ⟨t, ht⟩ := (DateTime.fromtimestamp_seconds _).mpr h.issued
  obtain ⟨c, hc⟩ := (PolicyBundle.cut_ok_iff _).mpr h.instants
  have hvalid : u.deliveredAt.us < c.notAfter.us := by
    rw [DateTime.fromtimestamp_int.mp (PolicyBundle.cut_eq_ok_iff.mp hc).2.1]
    exact h.valid
  have hnewer : (Value.int u.bundle.sequence).le s.sequence = .ok false := by
    rw [hm, Value.le_int, Except.ok.injEq, decide_eq_false_iff_not]
    exact not_le.mpr hlt
  have hpublish := publish_default signer u.bundle u.issuedAt
  have admitted := (admitted_publish laws rfl hpublish hkey hissuer).mpr ⟨t, c, ht, hc, rfl, rfl,
    timestamp_cut_le_horizon hclock ht, hunseen, hauthority, hnewer, hvalid⟩
  have hcommit : (epochs.commit {} c.toWire.sequence).1 = .ok () :=
    (sequence_cut hc).symm ▸ EpochStore.commit_ok hread hkeep
  refine ⟨c, hc, ?_⟩
  simp only [takeUpdate, hpublish, BundleStore.accept_of_admitted admitted rfl hcommit]
  exact ⟨trivial, BundleStore.current_not_degraded.mpr ⟨rfl, hvalid⟩⟩

end One

/-! ## Several updates -/

/-- A second update comes under the nonce of the first, and is refused. -/
theorem not_taken_twice (laws : rt.Lawful) {signer : BundleSigner rt} {s : BundleStore rt}
    {epochs : EpochStore} {u v : Update} {updates : List Update}
    (h : Legitimate signer s epochs (u :: v :: updates)) :
    ¬ Taken signer s epochs (u :: v :: updates) := by
  intro htaken
  have haccepted := htaken.accepted
  simp only [takeUpdates, List.forall_mem_cons] at haccepted
  obtain ⟨⟨w, hw⟩, ⟨w', hw'⟩, -⟩ := haccepted
  obtain ⟨-, -, -, hkey, hissuer, hseen⟩ := takeUpdate_ok laws h.trustedKey h.expectedIssuer hw
  obtain ⟨-, hunseen, -⟩ := takeUpdate_ok laws (hkey.trans h.trustedKey)
    (hissuer.trans h.expectedIssuer) hw'
  rw [hseen] at hunseen
  simp [Value.eq] at hunseen

/-- A running site takes its authority's updates exactly when there is none, or one only that
can be read, whose nonce the store has not seen and whose sequence can be kept for a mark. -/
theorem taken_iff (laws : rt.Lawful) {signer : BundleSigner rt} {s : BundleStore rt}
    {epochs : EpochStore} {updates : List Update} (h : Legitimate signer s epochs updates) :
    Taken signer s epochs updates ↔ updates = [] ∨ ∃ u, updates = [u] ∧ u.Readable ∧
      s.seenNonces.any (·.eq (.bytes defaultNonce)) = false ∧
      epochs.Keepable u.bundle.sequence := by
  obtain ⟨m, k, hm, hread, hchain⟩ := h.mark
  match updates with
  | [] => exact ⟨fun _ => .inl rfl, fun _ => ⟨by simp [takeUpdates], by simp⟩⟩
  | [u] =>
    constructor
    · intro htaken
      have haccepted := htaken.accepted
      simp only [takeUpdates, List.forall_mem_cons] at haccepted
      obtain ⟨⟨w, hw⟩, -⟩ := haccepted
      obtain ⟨hreadable, hunseen, hcommit, -⟩ := takeUpdate_ok laws h.trustedKey h.expectedIssuer hw
      exact .inr ⟨u, rfl, hreadable, hunseen, (EpochStore.commit_ok_iff hread).mp hcommit⟩
    · rintro (hnil | ⟨u', hu, hreadable, hunseen, hkeep⟩)
      · cases hnil
      · cases hu
        have hlt : m < u.bundle.sequence := by simpa using hchain
        obtain ⟨c, hc, hok, hcurrent⟩ :=
          takeUpdate_of_readable laws h.trustedKey h.expectedIssuer hm
          hlt hread (h.authority u List.mem_cons_self)
          (h.issued u List.mem_cons_self) hreadable hunseen hkeep
        refine ⟨by simp [takeUpdates, hok], ?_⟩
        intro u' hu
        cases hu
        exact ⟨c, hc, hcurrent⟩
  -- both were signed with the default nonce, evaluated once when `publish` was defined
  | u :: v :: updates =>
    refine iff_of_false (not_taken_twice laws h) ?_
    rintro (hnil | ⟨u', hu, -⟩)
    · cases hnil
    · cases hu

namespace Sample

/-- The sample bundle of a sequence, published at noon and delivered a minute later. -/
def update (sequence : Int) : Update := ⟨bundle sequence, clock 0, clock 60⟩

/-- A store that was built on the sample floor and has accepted nothing. -/
def fresh (floor : WireBundle) : BundleStore standIn :=
  ⟨standIn.publicKey signer.key, "authority-1", "site-1", floor, none, .int (-1), []⟩

theorem readable_update (sequence : Int) : (update sequence).Readable := by
  refine ⟨(by decide +kernel : (clock 0).seconds ≤ maxSecond), fun t ht => ?_,
    (by decide +kernel : (clock 60).us < (clock 21600).seconds * 1000000)⟩
  obtain rfl | rfl : t = clock 0 ∨ t = clock 21600 := by
    simpa [update, PolicyBundle.instants, bundle] using ht
  · decide +kernel
  · decide +kernel

/-- Sample updates with increasing sequences above the mark are legitimate. -/
theorem legitimate (floor : WireBundle) (sequences : List Int)
    (h : List.IsChain (· < ·) (-1 :: sequences)) :
    Legitimate signer (fresh floor) (.memory (.int (-1))) (sequences.map update) := by
  have hmap : (sequences.map update).map (·.bundle.sequence) = sequences := by
    rw [List.map_map]
    exact List.map_id sequences
  refine ⟨rfl, rfl, ⟨-1, -1, rfl, rfl, ?_⟩, ?_, ?_, ?_⟩
  · rw [hmap]
    exact h
  all_goals
    intro u hu
    obtain ⟨n, -, rfl⟩ := List.mem_map.mp hu
  · rfl
  · exact (by decide : (clock 0).us ≤ (clock 60).us)
  · exact (by decide : (clock 60).us < (clock 21600).us)

end Sample

/-- The sample site refuses the second of two updates. -/
theorem second_update_refused : ∃ start, BundleStore.init (standIn.publicKey Sample.signer.key)
    "authority-1" "site-1" Sample.signedFloor none (.memory (.int (-1))) none = .ok start ∧
    Legitimate Sample.signer start (.memory (.int (-1))) [Sample.update 1, Sample.update 2] ∧
    ¬ Taken Sample.signer start (.memory (.int (-1))) [Sample.update 1, Sample.update 2] := by
  have hread : (EpochStore.memory (.int (-1))).read = .ok (.int (-1)) := rfl
  obtain ⟨floor, hinit⟩ := Sample.init_ok hread
  have hlegitimate := Sample.legitimate floor [1, 2] (by decide)
  exact ⟨_, hinit, hlegitimate, not_taken_twice lawful_standIn hlegitimate⟩

/-- The sample site takes one update, and does not take two. -/
theorem taken_iff_sample : ∃ start, BundleStore.init (standIn.publicKey Sample.signer.key)
    "authority-1" "site-1" Sample.signedFloor none (.memory (.int (-1))) none = .ok start ∧
    Legitimate Sample.signer start (.memory (.int (-1))) [Sample.update 1] ∧
    Taken Sample.signer start (.memory (.int (-1))) [Sample.update 1] := by
  have hread : (EpochStore.memory (.int (-1))).read = .ok (.int (-1)) := rfl
  obtain ⟨floor, hinit⟩ := Sample.init_ok hread
  have hlegitimate := Sample.legitimate floor [1] (by decide)
  exact ⟨_, hinit, hlegitimate, (taken_iff lawful_standIn hlegitimate).mpr
    (.inr ⟨_, rfl, Sample.readable_update 1, rfl, .inl trivial⟩)⟩

end Pilotfish
