import Pilotfish.Run
import Pilotfish.Signer

/-!
# What governs is genuine and newest

A store that was built on a signed floor takes deliveries, in any order and at any clocks. What
it reports as the bundle in force is followed back to the delivery it came from.

Results:
1. `newest_deliver`: the bundle, the sequence and the history stay tied to each other.
2. `current_genuine`: at every clock the bundle in force is genuine, newest and valid, or the
   verified floor governs because nothing was accepted or the newest bundle has expired.
-/

namespace Pilotfish
open Python

/-- A store with its mark and the history of what it accepted, the earliest first. -/
structure Held (rt : Runtime) where
  store : BundleStore rt
  epochs : EpochStore
  accepted : List (Bytes × WireBundle)

variable {rt : Runtime}

def Held.deliver (s : Held rt) (d : Delivery) : Held rt :=
  let (result, store, epochs) := s.store.accept s.epochs d.faults d.envelopeBytes d.now
  { store := store
    epochs := epochs
    accepted := s.accepted ++ (result.toOption.map fun b => (d.envelopeBytes, b)).toList }

/-- A delivery whose acceptance is known. -/
theorem Held.deliver_of_accept {s : Held rt} {d : Delivery} {bundle : WireBundle}
    {store : BundleStore rt} {epochs : EpochStore}
    (h : s.store.accept s.epochs d.faults d.envelopeBytes d.now = (.ok bundle, store, epochs)) :
    s.deliver d = ⟨store, epochs, s.accepted ++ [(d.envelopeBytes, bundle)]⟩ := by
  simp only [deliver, h]
  rfl

/-- The bundle came in an envelope that verified, from the issuer and naming it. -/
structure Genuine (trustedKey : rt.PublicKey) (expectedIssuer : String) (envelopeBytes : Bytes)
    (envelope : Envelope) (bundle : WireBundle) : Prop where
  decoded : decodeEnvelope rt envelopeBytes = .ok envelope
  typed : envelope.msgType = .str msgPolicyBundle
  issued : envelope.issuer = .str expectedIssuer
  verified : verify rt envelope trustedKey = .ok ()
  payload : decodeBundle rt envelope.payload = .ok bundle
  authority : bundle.authorityId = .str expectedIssuer

/-- The last of the accepted bundles: its sequence exceeds the mark and every other. -/
structure Last (mark : Int) (accepted : List (Bytes × WireBundle)) (envelopeBytes : Bytes)
    (bundle : WireBundle) (n : Int) : Prop where
  sequence : bundle.sequence = .int n
  above : mark < n
  split : ∃ earlier, accepted = earlier ++ [(envelopeBytes, bundle)] ∧
    ∀ other ∈ earlier, ∃ k, other.2.sequence = .int k ∧ k < n

/-! ## The invariant -/

section Invariant
variable (start : BundleStore rt) (mark : Int)

/-- The store holds nothing and no delivery was accepted, or it holds the last of them. -/
def NewestGoverns (s : Held rt) : Prop :=
  s.store.bundle = none ∧ s.store.sequence = .int mark ∧ s.accepted = [] ∨
  ∃ envelopeBytes envelope bundle n, s.store.bundle = some bundle ∧ s.store.sequence = .int n ∧
    Genuine start.trustedKey start.expectedIssuer envelopeBytes envelope bundle ∧
    Last mark s.accepted envelopeBytes bundle n

/-- The store's key, issuer and floor are those it was built with. -/
structure Newest (s : Held rt) : Prop where
  trustedKey : s.store.trustedKey = start.trustedKey
  expectedIssuer : s.store.expectedIssuer = start.expectedIssuer
  floor : s.store.floor = start.floor
  governed : NewestGoverns start mark s

variable {start mark} {s : Held rt}

/-- The store's sequence is an integer at or above the mark, and above it exceeds everything
accepted. -/
theorem NewestGoverns.sequence (h : NewestGoverns start mark s) :
    ∃ k, s.store.sequence = .int k ∧ mark ≤ k ∧
    ∀ other ∈ s.accepted, ∃ j, other.2.sequence = .int j ∧ j ≤ k := by
  rcases h with ⟨-, hseq, hnil⟩ | ⟨bytes, envelope, bundle, n, -, hseq, -, hlast⟩
  · refine ⟨mark, hseq, le_rfl, ?_⟩
    rw [hnil]
    simp
  · obtain ⟨earlier, hsplit, hbelow⟩ := hlast.split
    refine ⟨n, hseq, hlast.above.le, ?_⟩
    intro other hother
    rw [hsplit] at hother
    rcases List.mem_append.mp hother with hold | hnew
    · obtain ⟨j, hj, hlt⟩ := hbelow other hold
      exact ⟨j, hj, hlt.le⟩
    · rw [List.mem_singleton.mp hnew]
      exact ⟨n, hlast.sequence, le_rfl⟩

theorem newest_deliver (h : Newest start mark s) (d : Delivery)
    (hint : IntegerSequence rt d.envelopeBytes) : Newest start mark (s.deliver d) := by
  have hfixed : (s.deliver d).store.trustedKey = s.store.trustedKey ∧
      (s.deliver d).store.expectedIssuer = s.store.expectedIssuer ∧
      (s.deliver d).store.siteId = s.store.siteId ∧
      (s.deliver d).store.floor = s.store.floor := BundleStore.accept_fixed
  refine ⟨hfixed.1.trans h.trustedKey, hfixed.2.1.trans h.expectedIssuer,
    hfixed.2.2.2.trans h.floor, ?_⟩
  cases hresult : (s.store.accept s.epochs d.faults d.envelopeBytes d.now).1 with
  | error e =>
    -- an exception leaves the store and the history alone
    have hstore : (s.deliver d).store = s.store := BundleStore.accept_error hresult
    have haccepted : (s.deliver d).accepted = s.accepted := by
      simp [Held.deliver, hresult, Except.toOption]
    unfold NewestGoverns
    rw [hstore, haccepted]
    exact h.governed
  | ok bundle =>
    -- the new bundle exceeds the live sequence, which everything accepted is at or below
    obtain ⟨envelope, admitted, -, -, hafter⟩ := BundleStore.accept_ok hresult
    obtain ⟨k, hk, hmark, hbelow⟩ := h.governed.sequence
    obtain ⟨n, hn, hlt⟩ := admitted.sequence hint hk
    have hstore : (s.deliver d).store = s.store.install bundle envelope.nonce :=
      congrArg Prod.fst hafter
    have haccepted : (s.deliver d).accepted = s.accepted ++ [(d.envelopeBytes, bundle)] := by
      simp [Held.deliver, hresult, Except.toOption]
    unfold NewestGoverns
    rw [hstore, haccepted]
    refine .inr ⟨d.envelopeBytes, envelope, bundle, n, rfl, hn, ?_, hn, hmark.trans_lt hlt,
      s.accepted, rfl, fun other hother => ?_⟩
    · exact ⟨admitted.decoded, admitted.typed, h.expectedIssuer ▸ admitted.issued,
        h.trustedKey ▸ admitted.verified, admitted.payload, h.expectedIssuer ▸ admitted.authority⟩
    · obtain ⟨j, hj, hle⟩ := hbelow other hother
      exact ⟨j, hj, hle.trans_lt hlt⟩

theorem newest_run (h : Newest start mark s) {deliveries : List Delivery}
    (hint : ∀ d ∈ deliveries, IntegerSequence rt d.envelopeBytes) :
    Newest start mark (Run.run Held.deliver s deliveries) :=
  Run.run_invariant (I := Newest start mark) (fun _ d hs hd => newest_deliver hs d hd) h hint

end Invariant

/-! ## What the store reports -/

/-- What governs always is genuine and newest: over every run of deliveries to a store that was
built, and at every clock. -/
theorem current_genuine {trustedKey : rt.PublicKey} {expectedIssuer siteId : String}
    {signedFloor : Bytes} {floorLinks : Option (List Link)} {epochs : EpochStore}
    {readFault : Option Exc} {start : BundleStore rt} {mark : Int}
    (hinit : BundleStore.init trustedKey expectedIssuer siteId signedFloor floorLinks epochs
      readFault = .ok start)
    (hmark : epochs.read = .ok (.int mark)) {deliveries : List Delivery}
    (hint : ∀ d ∈ deliveries, IntegerSequence rt d.envelopeBytes) (now : DateTime)
    (b : WireBundle) :
    let s := Run.run Held.deliver ⟨start, epochs, []⟩ deliveries
    (s.store.current now = (b, false) → ∃ envelopeBytes envelope n,
      Genuine trustedKey expectedIssuer envelopeBytes envelope b ∧
      Last mark s.accepted envelopeBytes b n ∧ s.store.sequence = b.sequence ∧
      now.us < b.notAfter.us) ∧
    (s.store.current now = (b, true) →
      (∃ envelope, BundleStore.FloorInstalled trustedKey expectedIssuer siteId signedFloor floorLinks
        envelope b) ∧
      (s.accepted = [] ∨ ∃ envelopeBytes newest n, Last mark s.accepted envelopeBytes newest n ∧
        newest.notAfter.us ≤ now.us)) := by
  intro s
  obtain ⟨floor, sequence, hfloor, -, hread, rfl⟩ := BundleStore.init_ok.mp hinit
  obtain rfl : sequence = .int mark := Except.ok.inj (hread.symm.trans hmark)
  have hs : Newest _ mark s := newest_run ⟨rfl, rfl, rfl, .inl ⟨rfl, rfl, rfl⟩⟩ hint
  constructor
  · intro hcurrent
    obtain ⟨hbundle, hvalid⟩ := BundleStore.current_not_degraded.mp hcurrent
    rcases hs.governed with ⟨hnone, -⟩ | ⟨bytes, envelope, bundle, n, hsome, hseq, hgenuine, hlast⟩
    · exact absurd (hnone.symm.trans hbundle) (by simp)
    · obtain rfl : bundle = b := Option.some.inj (hsome.symm.trans hbundle)
      exact ⟨bytes, envelope, n, hgenuine, hlast, hseq.trans hlast.sequence.symm, hvalid⟩
  · intro hcurrent
    obtain ⟨rfl, hexpired⟩ := BundleStore.current_degraded.mp hcurrent
    constructor
    · rw [hs.floor]
      exact BundleStore.installFloor_ok.mp hfloor
    · rcases hs.governed with ⟨-, -, hnil⟩ | ⟨bytes, envelope, bundle, n, hsome, -, -, hlast⟩
      · exact .inl hnil
      · exact .inr ⟨bytes, bundle, n, hlast, hexpired bundle hsome⟩

/-- What the sample store holds after one delivery. -/
theorem Sample.deliver (floor : WireBundle) :
    Held.deliver ⟨⟨standIn.publicKey Sample.signer.key, "authority-1", "site-1", floor, none,
      .int (-1), []⟩, .memory (.int (-1)), []⟩ ⟨Sample.envelope 1 0, Sample.clock 60, {}⟩ =
    ⟨⟨standIn.publicKey Sample.signer.key, "authority-1", "site-1", floor,
      some (Sample.bundle 1).toWire, .int 1, [.bytes (List.replicate 16 0)]⟩, .memory (.int 1),
      [(Sample.envelope 1 0, (Sample.bundle 1).toWire)]⟩ :=
  Held.deliver_of_accept (Sample.accept 1 0 rfl rfl rfl (by decide) (by decide) rfl (by decide) rfl
    (.inl trivial))

/-- The sample store accepts a bundle, which then is what governs. -/
theorem current_genuine_sample : ∃ start, BundleStore.init (standIn.publicKey Sample.signer.key)
    "authority-1" "site-1" Sample.signedFloor none (.memory (.int (-1))) none = .ok start ∧
    let s := Run.run Held.deliver ⟨start, .memory (.int (-1)), []⟩
      [⟨Sample.envelope 1 0, Sample.clock 60, {}⟩]
    s.store.current (Sample.clock 120) = ((Sample.bundle 1).toWire, false) ∧
    ∃ envelopeBytes envelope n,
      Genuine (standIn.publicKey Sample.signer.key) "authority-1" envelopeBytes envelope
        (Sample.bundle 1).toWire ∧
      Last (-1) s.accepted envelopeBytes (Sample.bundle 1).toWire n ∧
      s.store.sequence = (Sample.bundle 1).toWire.sequence ∧
      (Sample.clock 120).us < (Sample.bundle 1).toWire.notAfter.us := by
  have hread : (EpochStore.memory (.int (-1))).read = .ok (.int (-1)) := rfl
  obtain ⟨floor, hinit⟩ := Sample.init_ok hread
  have hint : ∀ d ∈ [(⟨Sample.envelope 1 0, Sample.clock 60, {}⟩ : Delivery)],
      IntegerSequence standIn d.envelopeBytes := by
    simpa using integerSequence_publish lawful_standIn List.length_replicate
      (Sample.publish_bundle 1 0)
  have hgoverns := (current_genuine hinit hread hint (Sample.clock 120) (Sample.bundle 1).toWire).1
  refine ⟨_, hinit, ?_⟩
  rw [Run.run_cons, Run.run_nil, Sample.deliver] at hgoverns ⊢
  have hvalid : (Sample.clock 120).us < (Sample.bundle 1).toWire.notAfter.us := by decide
  exact ⟨BundleStore.current_not_degraded.mpr ⟨rfl, hvalid⟩,
    hgoverns (BundleStore.current_not_degraded.mpr ⟨rfl, hvalid⟩)⟩

end Pilotfish
