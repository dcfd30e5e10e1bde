import Pilotfish.Governance
import Pilotfish.Network

/-!
# Sites converge

Deliveries reach a running process in any order, more than once, and among forged ones. Once the
newest bundle that the authority published has arrived, it governs, whatever else arrives.

Results:
1. `admits_newest`: a process that waits for the newest bundle takes it.
2. `tracks_deliver`: no delivery takes a process off its way to the newest bundle.
3. `newest_governs`: the newest bundle governs every process that it reached in time.
-/

namespace Pilotfish
open Python

variable {rt : Runtime}

def Order.nonce? : Order → Option Bytes
  | .bundle _ _ nonce => some nonce
  | .floor _ _ _ _ _ => none

/-- A bundle as it was published: it is numbered above all others that were issued, its nonce is its
own, and its instants can be read. -/
structure LastPublished (signer : BundleSigner rt) (issued : List Order) (b c : PolicyBundle)
    (issue : DateTime) (nonce : Bytes) : Prop where
  mem : .bundle b issue nonce ∈ issued
  above : ∀ other ∈ issued, other = .bundle b issue nonce ∨
    other.Below (.bundle b issue nonce) ∧ other.nonce? ≠ some nonce
  length : nonce.length = nonceBytes
  authority : b.authorityId = signer.issuer
  cut : b.cut = .ok c

/-- It arrives while it is valid, and no file operation fails. -/
structure ArrivesInTime (signer : BundleSigner rt) (b c : PolicyBundle) (issue : DateTime)
    (nonce : Bytes) (d : Delivery) : Prop where
  sent : signer.publish b issue nonce = .ok d.envelopeBytes
  stamped : ∃ t, issue.cut = .ok t ∧ t.timestamp ≤ horizon d.now
  unexpired : d.now.us < c.notAfter.us
  faults : d.faults = {}

/-- The process is below the bundle and has not seen its nonce. -/
structure Waits (b : PolicyBundle) (nonce : Bytes) (s : BundleStore rt) : Prop where
  below : ∃ k, s.sequence = .int k ∧ k < b.sequence
  unseen : s.seenNonces.any (·.eq (.bytes nonce)) = false

/-- The bundle governs. -/
structure Arrived (b c : PolicyBundle) (s : BundleStore rt) : Prop where
  bundle : s.bundle = some c.toWire
  sequence : s.sequence = .int b.sequence

structure Tracks (signer : BundleSigner rt) (b c : PolicyBundle) (nonce : Bytes) (s : Held rt) :
    Prop where
  trustedKey : s.store.trustedKey = rt.publicKey signer.key
  expectedIssuer : s.store.expectedIssuer = signer.issuer
  readable : ∃ k, s.epochs.read = .ok (.int k)
  keepable : s.epochs.Volatile ∨ (Value.int b.sequence).printable = true
  way : Waits b nonce s.store ∨ Arrived b c s.store

section Deliveries
variable (laws : rt.Lawful) {signer : BundleSigner rt} {issued : List Order} {b c : PolicyBundle}
  {issue : DateTime} {nonce : Bytes} (hlast : LastPublished signer issued b c issue nonce)
  {s : Held rt}
include laws hlast

/-- A process that waits for the bundle takes it. -/
theorem admits_newest (h : Tracks signer b c nonce s) (hwaits : Waits b nonce s.store)
    {d : Delivery} (hd : ArrivesInTime signer b c issue nonce d) :
    Arrived b c (s.deliver d).store := by
  obtain ⟨t, ht, hstamped⟩ := hd.stamped
  obtain ⟨k, hk, hlt⟩ := hwaits.below
  obtain ⟨mark, hread⟩ := h.readable
  have hnewer : (Value.int b.sequence).le s.store.sequence = .ok false := by
    rw [hk, Value.le_int, Except.ok.injEq, decide_eq_false_iff_not]
    exact not_le.mpr hlt
  have hadmitted := (admitted_publish laws hlast.length hd.sent h.trustedKey h.expectedIssuer).mpr
    ⟨t, c, ht, hlast.cut, rfl, rfl, hstamped, hwaits.unseen, hlast.authority, hnewer, hd.unexpired⟩
  have hsequence : c.sequence = b.sequence := (PolicyBundle.cut_fields hlast.cut).2.1
  have hcommit : (s.epochs.commit d.faults c.toWire.sequence).1 = .ok () := by
    rw [hd.faults]
    refine EpochStore.commit_ok hread ?_
    rw [hsequence]
    exact h.keepable.imp_right .inl
  rw [Held.deliver_of_accept (BundleStore.accept_of_admitted hadmitted rfl hcommit)]
  exact ⟨rfl, congrArg Value.int hsequence⟩

/-- What is admitted on the way is the bundle, or is below it and has another nonce. -/
theorem admitted_below {envelopeBytes : Bytes} (hunforged : Unforged signer issued envelopeBytes)
    (h : Tracks signer b c nonce s) {now : DateTime} {envelope : Envelope} {w : WireBundle}
    (hadmitted : s.store.Admitted envelopeBytes now envelope w) :
    w = c.toWire ∨ ∃ k, w.sequence = .int k ∧ k < b.sequence ∧
      envelope.nonce.eq (.bytes nonce) = false := by
  obtain ⟨b', issue', nonce', c', horder, hcut, rfl, hnonce⟩ :=
    admitted_order laws hunforged h.trustedKey hadmitted
  rcases hlast.above _ horder with hsame | ⟨hbelow, hother⟩
  · cases hsame
    obtain rfl := Except.ok.inj (hcut.symm.trans hlast.cut)
    exact .inl rfl
  · refine .inr ⟨b'.sequence, ?_, hbelow _ _ rfl rfl, ?_⟩
    · exact congrArg Value.int (PolicyBundle.cut_fields hcut).2.1
    · rw [hnonce]
      have hne : nonce' ≠ nonce := fun heq => hother (congrArg some heq)
      simpa [Value.eq] using hne

/-- What is admitted was not admitted before. -/
theorem not_arrived {envelopeBytes : Bytes} (hunforged : Unforged signer issued envelopeBytes)
    (h : Tracks signer b c nonce s) {now : DateTime} {envelope : Envelope} {w : WireBundle}
    (hadmitted : s.store.Admitted envelopeBytes now envelope w) : ¬Arrived b c s.store := by
  intro harrived
  have hsequence : c.sequence = b.sequence := (PolicyBundle.cut_fields hlast.cut).2.1
  obtain ⟨n, hn, hle⟩ : ∃ n, w.sequence = .int n ∧ n ≤ b.sequence := by
    rcases admitted_below laws hlast hunforged h hadmitted with rfl | ⟨n, hn, hlt, -⟩
    · exact ⟨c.sequence, rfl, hsequence.le⟩
    · exact ⟨n, hn, hlt.le⟩
  have hnewer := hadmitted.newer
  rw [hn, harrived.sequence, Value.le_int, Except.ok.injEq, decide_eq_false_iff_not] at hnewer
  exact hnewer hle

/-- No delivery takes a process off its way, nor the bundle out of force. -/
theorem tracks_deliver (h : Tracks signer b c nonce s) {d : Delivery}
    (hunforged : Unforged signer issued d.envelopeBytes) :
    Tracks signer b c nonce (s.deliver d) ∧
      (Arrived b c s.store → Arrived b c (s.deliver d).store) := by
  obtain ⟨k, hread⟩ := h.readable
  have hkeepable (sequence : Value) : (s.epochs.commit d.faults sequence).2.Volatile ∨
      (Value.int b.sequence).printable = true :=
    h.keepable.imp_left (EpochStore.volatile_commit s.epochs d.faults sequence).mpr
  -- the mark can still be read when what was admitted is numbered
  have hcommit {envelope : Envelope} {w : WireBundle}
      (hadmitted : s.store.Admitted d.envelopeBytes d.now envelope w) :
      ∃ k', (s.epochs.commit d.faults w.sequence).2.read = .ok (.int k') := by
    obtain ⟨n, hn⟩ := sequence_published (admitted_issued laws hunforged h.trustedKey hadmitted)
    obtain ⟨k', hread', -⟩ := EpochStore.between_commit d.faults n hread
    exact ⟨k', hn ▸ hread'⟩
  have hcases := BundleStore.accept_cases s.store s.epochs d.faults d.envelopeBytes d.now
  generalize hr : s.store.accept s.epochs d.faults d.envelopeBytes d.now = r at hcases
  cases hcases with
  | refused e =>
    simp only [Held.deliver, hr]
    exact ⟨⟨h.trustedKey, h.expectedIssuer, h.readable, h.keepable, h.way⟩, id⟩
  | uncommitted envelope w e admitted failed =>
    simp only [Held.deliver, hr]
    exact ⟨⟨h.trustedKey, h.expectedIssuer, hcommit admitted, hkeepable _, h.way⟩, id⟩
  | unrecorded envelope w e admitted committed unhashable =>
    simp only [Held.deliver, hr]
    exact ⟨⟨h.trustedKey, h.expectedIssuer, hcommit admitted, hkeepable _, h.way⟩, id⟩
  | installed envelope w admitted committed hashable =>
    have hnot := not_arrived laws hlast hunforged h admitted
    rw [Held.deliver_of_accept hr]
    refine ⟨⟨h.trustedKey, h.expectedIssuer, hcommit admitted, hkeepable _, ?_⟩, fun harrived =>
      absurd harrived hnot⟩
    have hwaits := h.way.resolve_right hnot
    rcases admitted_below laws hlast hunforged h admitted with rfl | ⟨n, hn, hlt, hother⟩
    · exact .inr ⟨rfl, congrArg Value.int (PolicyBundle.cut_fields hlast.cut).2.1⟩
    · refine .inl ⟨⟨n, hn, hlt⟩, ?_⟩
      rw [BundleStore.install_seenNonces, List.any_cons, hother, hwaits.unseen]
      rfl

theorem tracks_run (h : Tracks signer b c nonce s) {deliveries : List Delivery}
    (hunforged : ∀ d ∈ deliveries, Unforged signer issued d.envelopeBytes) :
    Tracks signer b c nonce (Run.run Held.deliver s deliveries) :=
  Run.run_invariant (I := Tracks signer b c nonce)
    (fun _ d hs hd => (tracks_deliver laws hlast hs (d := d) hd).1) h hunforged

theorem arrived_run (h : Tracks signer b c nonce s) (harrived : Arrived b c s.store)
    {deliveries : List Delivery}
    (hunforged : ∀ d ∈ deliveries, Unforged signer issued d.envelopeBytes) :
    Arrived b c (Run.run Held.deliver s deliveries).store :=
  (Run.run_invariant (I := fun s => Tracks signer b c nonce s ∧ Arrived b c s.store)
    (fun _ d hs hd =>
      have hd' := tracks_deliver laws hlast hs.1 (d := d) hd
      ⟨hd'.1, hd'.2 hs.2⟩) ⟨h, harrived⟩ hunforged).2

end Deliveries

/-- A process that came up below the newest bundle, whose sequence it can keep for a mark, and that
this bundle reached in time, is governed by it to its end, in whatever order and company it came. -/
theorem newest_governs (laws : rt.Lawful) {signer : BundleSigner rt} {issued : List Order}
    {b c : PolicyBundle} {issue : DateTime} {nonce : Bytes}
    (hlast : LastPublished signer issued b c issue nonce) {siteId : String} {signedFloor : Bytes}
    {floorLinks : Option (List Link)} {epochs : EpochStore} {readFault : Option Exc}
    {start : BundleStore rt} {mark : Int} (hinit : BundleStore.init (rt.publicKey signer.key)
      signer.issuer siteId signedFloor floorLinks epochs readFault = .ok start)
    (hmark : epochs.read = .ok (.int mark)) (hbelow : mark < b.sequence)
    (hkeep : epochs.Keepable b.sequence)
    {deliveries : List Delivery}
    (hunforged : ∀ d ∈ deliveries, Unforged signer issued d.envelopeBytes)
    (hreached : ∃ d ∈ deliveries, ArrivesInTime signer b c issue nonce d) (now : DateTime) :
    (Run.run Held.deliver ⟨start, epochs, []⟩ deliveries).store.current now =
      if now.us < c.notAfter.us then (c.toWire, false) else (start.floor, true) := by
  obtain ⟨floor, sequence, -, -, hread, rfl⟩ := BundleStore.init_ok.mp hinit
  obtain rfl : Value.int mark = sequence := Except.ok.inj (hmark.symm.trans hread)
  have hkeepable : epochs.Volatile ∨ (Value.int b.sequence).printable = true := by
    rcases hkeep with hvolatile | hprintable | ⟨m, hm, hle⟩
    · exact .inl hvolatile
    · exact .inr hprintable
    · cases hmark.symm.trans hm
      exact absurd hbelow (not_lt.mpr hle)
  have hstart : Tracks signer b c nonce ⟨⟨rt.publicKey signer.key, signer.issuer, siteId, floor,
      none, .int mark, []⟩, epochs, []⟩ :=
    ⟨rfl, rfl, ⟨mark, hmark⟩, hkeepable, .inl ⟨⟨mark, rfl, hbelow⟩, rfl⟩⟩
  obtain ⟨d, hd, hintime⟩ := hreached
  obtain ⟨before, after, rfl⟩ := List.append_of_mem hd
  have hbefore := tracks_run laws hlast hstart fun d hd =>
    hunforged d (List.mem_append_left _ hd)
  have hthen := tracks_deliver laws hlast hbefore (hunforged d hd)
  have harrived := hbefore.way.elim (fun hwaits => admits_newest laws hlast hbefore hwaits hintime)
    hthen.2
  have hgoverns := arrived_run laws hlast hthen.1 harrived fun d hd =>
    hunforged d (List.mem_append_right _ (.tail _ hd))
  have hfloor : ∀ s : Held rt, s.store.floor = floor →
      (Run.run Held.deliver s (before ++ d :: after)).store.floor = floor := fun _ hs =>
    Run.run_invariant (I := fun s : Held rt => s.store.floor = floor)
      (fun s d hs (_ : True) => (BundleStore.accept_fixed.2.2.2 :
        (s.deliver d).store.floor = s.store.floor).trans hs) hs fun _ _ => trivial
  rw [BundleStore.current, hfloor _ rfl, Run.run_append, Run.run_cons, hgoverns.bundle]
  by_cases hnow : now.us < c.notAfter.us
  · rw [if_pos hnow]
    exact if_neg (not_le.mpr hnow)
  · rw [if_neg hnow]
    exact if_pos (not_lt.mp hnow)

namespace Sample

theorem lastPublished : LastPublished signer orders (bundle 2) (bundle 2) (clock 0)
    (List.replicate 16 1) where
  mem := .tail _ (.tail _ (.head _))
  above other hother := by
    rcases List.mem_cons.mp hother with rfl | hother
    · exact .inr ⟨(by rintro m n ⟨⟩), (by rintro ⟨⟩)⟩
    · rcases List.mem_pair.mp hother with rfl | rfl
      · refine .inr ⟨?_, by decide⟩
        rintro m n ⟨⟩ ⟨⟩
        decide
      · exact .inl rfl
  length := List.length_replicate
  authority := rfl
  cut := cut_bundle 2

/-- The newest bundle, the one before it, and noise. -/
def outOfOrder : List Delivery :=
  [⟨envelope 2 1, clock 60, {}⟩, ⟨envelope 1 0, clock 120, {}⟩, ⟨[], clock 180, {}⟩]

end Sample

/-- The bundle before it, which arrives after it, does not displace the newest. -/
theorem newest_governs_sample : ∃ start, BundleStore.init (standIn.publicKey Sample.signer.key)
    "authority-1" "site-1" Sample.signedFloor none (.memory (.int (-1))) none = .ok start ∧
    (Run.run Held.deliver ⟨start, .memory (.int (-1)), []⟩ Sample.outOfOrder).store.current
      (Sample.clock 240) = ((Sample.bundle 2).toWire, false) := by
  have hread : (EpochStore.memory (.int (-1))).read = .ok (.int (-1)) := rfl
  obtain ⟨floor, hinit⟩ := Sample.init_ok hread
  refine ⟨_, hinit, ?_⟩
  have hunforged : ∀ d ∈ Sample.outOfOrder, Unforged Sample.signer Sample.orders d.envelopeBytes := by
    intro d hd
    rcases List.mem_cons.mp hd with rfl | hd
    · exact Sample.unforged_envelope (.tail _ (.tail _ (.head _)))
    · rcases List.mem_pair.mp hd with rfl | rfl
      · exact Sample.unforged_envelope (.tail _ (.head _))
      · exact Sample.unforged_nothing
  have hreached : ∃ d ∈ Sample.outOfOrder, ArrivesInTime Sample.signer (Sample.bundle 2)
      (Sample.bundle 2) (Sample.clock 0) (List.replicate 16 1) d :=
    ⟨_, .head _, Sample.publish_bundle 2 1,
      ⟨Sample.clock 0, Sample.cut_clock 0, timestamp_cut_le_horizon (by decide) (Sample.cut_clock 0)⟩,
      by decide, rfl⟩
  exact newest_governs lawful_standIn Sample.lastPublished hinit rfl (by decide) (.inl trivial)
    hunforged hreached (Sample.clock 240)

end Pilotfish
