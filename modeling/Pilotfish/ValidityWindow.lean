import Pilotfish.Publication
import Pilotfish.Governance

/-!
# The two ends of the validity window

A bundle says from when and until when it is valid. The store reads the end whenever it is asked
what governs; the beginning nothing ever reads, only the stamp of the envelope around it.

Results:
1. `begun_deliver`: a delivery that installs nothing issued ahead keeps what governs inside.
2. `run_in_window_iff`: in which runs a bundle governs inside its window only.
-/

namespace Pilotfish
open Python

variable {rt : Runtime}

/-- A store with its mark and the clock of what it accepted last. -/
structure Watched (rt : Runtime) where
  store : BundleStore rt
  epochs : EpochStore
  lastAccept : Option DateTime

namespace Watched

def deliver (s : Watched rt) (d : Delivery) : Watched rt :=
  let (result, store, epochs) := s.store.accept s.epochs d.faults d.envelopeBytes d.now
  { store := store
    epochs := epochs
    lastAccept :=
      match result with
      | .ok _ => some d.now
      | .error _ => s.lastAccept }

/-- At every clock from the last accept on, what governs has been issued, give or take the skew
allowance, and has not expired. -/
def InWindow (s : Watched rt) : Prop :=
  ∀ (now : DateTime) (b : WireBundle), (∀ t, s.lastAccept = some t → t.us ≤ now.us) →
    s.store.current now = (b, false) →
    b.issuedAt.us ≤ now.us + 120 * 1000000 ∧ now.us < b.notAfter.us

/-- The bundle passes the checks, its mark is committed and its nonce recorded. -/
def Installs (s : Watched rt) (d : Delivery) (b : WireBundle) : Prop :=
  ∃ envelope, s.store.Admitted d.envelopeBytes d.now envelope b ∧
    (s.epochs.commit d.faults b.sequence).1 = .ok () ∧ envelope.nonce.hashable = .ok ()

/-- Nothing is installed that was issued further ahead than the skew allowance. -/
def InstallsBegun (s : Watched rt) (d : Delivery) : Prop :=
  ∀ b, s.Installs d b → b.issuedAt.us ≤ d.now.us + 120 * 1000000

/-! ## A delivery -/

variable {s : Watched rt} {d : Delivery}

theorem deliver_of_installs {b : WireBundle} (h : s.Installs d b) :
    (s.deliver d).store.bundle = some b ∧ (s.deliver d).lastAccept = some d.now := by
  obtain ⟨envelope, hadmitted, hcommit, hhash⟩ := h
  unfold deliver
  rw [BundleStore.accept_of_admitted hadmitted hhash hcommit]
  exact ⟨rfl, rfl⟩

/-- A delivery installs a bundle or leaves what governs, and since when, alone. -/
theorem deliver_cases (s : Watched rt) (d : Delivery) : (∃ b, s.Installs d b) ∨
    (s.deliver d).store.bundle = s.store.bundle ∧ (s.deliver d).lastAccept = s.lastAccept := by
  cases hresult : (s.store.accept s.epochs d.faults d.envelopeBytes d.now).1 with
  | ok b =>
    obtain ⟨envelope, hadmitted, hhash, hcommit, -⟩ := BundleStore.accept_ok hresult
    exact .inl ⟨b, envelope, hadmitted, hcommit, hhash⟩
  | error e =>
    have hstore : (s.deliver d).store = s.store := BundleStore.accept_error hresult
    refine .inr ⟨congrArg BundleStore.bundle hstore, ?_⟩
    show (match (s.store.accept s.epochs d.faults d.envelopeBytes d.now).1 with
      | .ok _ => some d.now
      | .error _ => s.lastAccept) = _
    rw [hresult]

/-! ## The invariant -/

/-- What the store holds had been issued when it was accepted. -/
def Begun (s : Watched rt) : Prop :=
  ∀ b, s.store.bundle = some b →
    ∃ t, s.lastAccept = some t ∧ b.issuedAt.us ≤ t.us + 120 * 1000000

theorem begun_deliver (h : s.Begun) (hd : s.InstallsBegun d) : (s.deliver d).Begun := by
  unfold Begun
  rcases s.deliver_cases d with ⟨b, hb⟩ | ⟨hbundle, hlast⟩
  · obtain ⟨hbundle, hlast⟩ := deliver_of_installs hb
    rw [hbundle, hlast]
    rintro _ ⟨⟩
    exact ⟨d.now, rfl, hd b hb⟩
  · rw [hbundle, hlast]
    exact h

theorem Begun.inWindow (h : s.Begun) : s.InWindow := by
  intro now b hnow hcurrent
  obtain ⟨hbundle, hvalid⟩ := BundleStore.current_not_degraded.mp hcurrent
  obtain ⟨t, hlast, hissued⟩ := h b hbundle
  have hlater := hnow t hlast
  exact ⟨by omega, hvalid⟩

/-- A bundle governs at the very clock at which it is installed. -/
theorem installsBegun_of_inWindow (h : (s.deliver d).InWindow) : s.InstallsBegun d := by
  intro b hb
  obtain ⟨hbundle, hlast⟩ := deliver_of_installs hb
  obtain ⟨envelope, hadmitted, -, -⟩ := hb
  refine (h d.now b ?_ (BundleStore.current_not_degraded.mpr ⟨hbundle, hadmitted.valid⟩)).1
  intro t ht
  cases hlast.symm.trans ht
  exact le_rfl

end Watched

/-- From a store that was built, a bundle governs inside its window only, in every state that is
reached, exactly if no delivery installs one that is issued ahead of its clock. -/
theorem run_in_window_iff {trustedKey : rt.PublicKey} {expectedIssuer siteId : String}
    {signedFloor : Bytes} {floorLinks : Option (List Link)} {epochs : EpochStore}
    {readFault : Option Exc} {start : BundleStore rt}
    (hinit : BundleStore.init trustedKey expectedIssuer siteId signedFloor floorLinks epochs
      readFault = .ok start) (deliveries : List Delivery) :
    (∀ before after, before ++ after = deliveries →
      (Run.run Watched.deliver ⟨start, epochs, none⟩ before).InWindow) ↔
    Run.Along Watched.deliver Watched.InstallsBegun ⟨start, epochs, none⟩ deliveries := by
  constructor
  · intro h
    refine Run.along_iff.mpr ?_
    intro before d after hsplit
    have hafter := h (before ++ [d]) after (by rw [List.append_assoc]; exact hsplit)
    rw [Run.run_append] at hafter
    exact Watched.installsBegun_of_inWindow hafter
  · rintro halong before after rfl
    obtain ⟨floor, sequence, -, -, -, rfl⟩ := BundleStore.init_ok.mp hinit
    let begun : Watched rt := ⟨⟨trustedKey, expectedIssuer, siteId, floor, none, sequence, []⟩,
      epochs, none⟩
    have hstart : begun.Begun := fun b hb => by cases hb
    exact (Run.Along.invariant (fun _ _ h hd => Watched.begun_deliver h hd) hstart
      (Run.along_append.mp halong).1).inWindow

namespace Sample

/-- The sample bundle, issued at some second. -/
def issuedAt (seconds : UInt16) : PolicyBundle := { bundle 1 with issuedAt := clock seconds }

theorem cut_issuedAt (seconds : UInt16) : (issuedAt seconds).cut = .ok (issuedAt seconds) :=
  PolicyBundle.cut_eq_ok_iff.mpr ⟨cut_clock seconds, cut_clock 21600, rfl, rfl⟩

theorem installs_issuedAt (floor : WireBundle) (seconds : UInt16) {b : WireBundle} :
    Watched.Installs ⟨fresh floor, .memory (.int (-1)), none⟩ (delivery (issuedAt seconds)) b ↔
    b = (issuedAt seconds).toWire := by
  have hvalid : (clock 60).us < (clock 21600).us := by decide
  have hadmitted {e : Envelope} := admitted_delivery floor (cut_issuedAt seconds) rfl rfl hvalid
    (e := e) (w := b)
  constructor
  · rintro ⟨envelope, h, -, -⟩
    exact (hadmitted.mp h).1
  · rintro rfl
    exact ⟨_, hadmitted.mpr ⟨rfl, rfl⟩, EpochStore.commit_ok rfl (.inl trivial), rfl⟩

end Sample

/-- Stamped at noon, a bundle issued five hours later governs from a minute after noon. -/
theorem early_bundle_governs : ∃ start, BundleStore.init (standIn.publicKey Sample.signer.key)
    "authority-1" "site-1" Sample.signedFloor none (.memory (.int (-1))) none = .ok start ∧
    let s := Run.run Watched.deliver ⟨start, .memory (.int (-1)), none⟩
      [Sample.delivery (Sample.issuedAt 18000)]
    s.store.current (Sample.clock 60) = ((Sample.issuedAt 18000).toWire, false) ∧
    (Sample.clock 60).us + 120 * 1000000 < (Sample.issuedAt 18000).toWire.issuedAt.us ∧
    ¬s.InWindow := by
  have hread : (EpochStore.memory (.int (-1))).read = .ok (.int (-1)) := rfl
  obtain ⟨floor, hinit⟩ := Sample.init_ok hread
  have hinstalls := (Sample.installs_issuedAt floor 18000).mpr rfl
  obtain ⟨hbundle, -⟩ := Watched.deliver_of_installs hinstalls
  have hahead : (Sample.clock 60).us + 120 * 1000000 < (Sample.clock 18000).us := by decide
  have hvalid : (Sample.clock 60).us < (Sample.clock 21600).us := by decide
  refine ⟨_, hinit, ?_⟩
  rw [Run.run_cons, Run.run_nil]
  refine ⟨BundleStore.current_not_degraded.mpr ⟨hbundle, hvalid⟩, hahead, ?_⟩
  intro hwindow
  have hbegun := Watched.installsBegun_of_inWindow hwindow _ hinstalls
  exact absurd hbegun (not_le.mpr hahead)

/-- Issued at noon, it governs inside its window. -/
theorem run_in_window_sample : ∃ start, BundleStore.init (standIn.publicKey Sample.signer.key)
    "authority-1" "site-1" Sample.signedFloor none (.memory (.int (-1))) none = .ok start ∧
    (Run.run Watched.deliver ⟨start, .memory (.int (-1)), none⟩
      [Sample.delivery (Sample.issuedAt 0)]).InWindow := by
  have hread : (EpochStore.memory (.int (-1))).read = .ok (.int (-1)) := rfl
  obtain ⟨floor, hinit⟩ := Sample.init_ok hread
  refine ⟨_, hinit, (run_in_window_iff hinit [Sample.delivery (Sample.issuedAt 0)]).mpr ?_ _ [] rfl⟩
  refine ⟨?_, trivial⟩
  intro b hb
  rw [(Sample.installs_issuedAt floor 0).mp hb]
  decide

end Pilotfish
