import Pilotfish.Run
import Pilotfish.Signer

/-!
# No rollback across crashes and restarts

One site over one epoch store: processes start, accept deliveries, raise, and are killed, also
half-way through a commit or through the installation that follows it. One process lives at a
time.

Results:
1. `marked_step`: the mark, the installed sequences and the live store stay related at every
   step, whatever happens in it.
2. `no_rollback`: over every run the installed sequences increase, the mark is above all of
   them, and neither the mark nor the store's sequence ever falls.
-/

namespace Pilotfish
open Python

/-- A site between two events. `installed` is a history: every bundle a process ever installed,
the earliest first. -/
structure Site (rt : Runtime) where
  epochs : EpochStore
  live : Option (BundleStore rt)
  installed : List WireBundle

inductive SiteEvent (rt : Runtime)
  /-- A new process builds its store. -/
  | start (trustedKey : rt.PublicKey) (expectedIssuer siteId : String) (signedFloor : Bytes)
      (floorLinks : Option (List Link)) (readFault : Option Exc)
  /-- A delivery is accepted or refused; the operating system may fail the commit. -/
  | accept (envelopeBytes : Bytes) (now : DateTime) (faults : EpochFaults)
  /-- The process is killed between two calls. -/
  | crash
  /-- The process is killed inside `accept`, when it has performed that many operations: those
  of the commit, then the three assignments of the installation. -/
  | crashInAccept (envelopeBytes : Bytes) (now : DateTime) (faults : EpochFaults) (performed : Nat)

namespace Site

variable {rt : Runtime}

/-- A site where no process has run. -/
def fresh (epochs : EpochStore) : Site rt := ⟨epochs, none, []⟩

/-- What is left when a process dies inside `accept`. The bundle is in force from the second
assignment on, which is not reached if the nonce cannot be put on record. -/
def killed (s : Site rt) (bundle : WireBundle) (nonce : Value) (faults : EpochFaults)
    (performed : Nat) : Site rt :=
  let (result, steps) := s.epochs.commitSteps faults bundle.sequence
  { epochs := s.epochs.performAll (steps.take performed)
    live := none
    installed :=
      if result.isOk ∧ nonce.hashable.isOk ∧ steps.length + 2 ≤ performed then
        s.installed ++ [bundle]
      else s.installed }

def step (s : Site rt) : SiteEvent rt → Site rt
  | .start trustedKey expectedIssuer siteId signedFloor floorLinks readFault =>
      match s.live with
      | some _ => s
      | none => { s with
          live := (BundleStore.init trustedKey expectedIssuer siteId signedFloor floorLinks
            s.epochs readFault).toOption }
  | .accept envelopeBytes now faults =>
      match s.live with
      | none => s
      | some store =>
          let (result, store', epochs') := store.accept s.epochs faults envelopeBytes now
          { epochs := epochs'
            live := some store'
            installed := s.installed ++ result.toOption.toList }
  | .crash => { s with live := none }
  | .crashInAccept envelopeBytes now faults performed =>
      match s.live with
      | none => s
      | some store =>
          match store.vet envelopeBytes now with
          | .error _ => { s with live := none }
          | .ok (bundle, nonce) => s.killed bundle nonce faults performed

end Site

/-- All deliveries of an event have integer sequences. -/
def SiteEvent.IntegerSequences {rt : Runtime} : SiteEvent rt → Prop
  | .accept envelopeBytes _ _ => IntegerSequence rt envelopeBytes
  | .crashInAccept envelopeBytes _ _ _ => IntegerSequence rt envelopeBytes
  | _ => True

/-! ## The invariant -/

namespace Site

variable {rt : Runtime} {s : Site rt} {base low : Int}

/-- Where the mark reads as `m`: it has not fallen below `base`, the installed sequences
increase up to it, and a live store's sequence lies between them and the mark, not below
`low`. -/
structure Marked (base low : Int) (s : Site rt) (m : Int) : Prop where
  read : s.epochs.read = .ok (.int m)
  base_le : base ≤ m
  low_le : low ≤ m
  installed : ∃ ns : List Int, s.installed.map (·.sequence) = ns.map .int ∧
    ns.Pairwise (· < ·) ∧ (∀ n ∈ ns, n ≤ m) ∧
    ∀ store, s.live = some store →
      ∃ k, store.sequence = .int k ∧ low ≤ k ∧ k ≤ m ∧ ∀ n ∈ ns, n ≤ k

theorem Marked.live_sequence {m : Int} (h : s.Marked base low m) {store : BundleStore rt}
    (hlive : s.live = some store) : ∃ k, store.sequence = .int k ∧ low ≤ k ∧ k ≤ m := by
  obtain ⟨ns, _, _, _, hstore⟩ := h.installed
  obtain ⟨k, hk, hlow, hkm, -⟩ := hstore store hlive
  exact ⟨k, hk, hlow, hkm⟩

/-- The same site is in order above its own mark and above its own live sequence. -/
theorem Marked.raise {m : Int} (h : s.Marked base low m) :
    s.Marked m low m ∧ ∀ store k,
      s.live = some store → store.sequence = .int k → s.Marked m k m := by
  refine ⟨{ h with base_le := le_rfl }, ?_⟩
  intro store k hlive hk
  obtain ⟨ns, hseq, hsorted, hns, hstore⟩ := h.installed
  obtain ⟨k', hk', -, hkm, hbelow⟩ := hstore store hlive
  obtain rfl : k = k' := Value.int.inj (hk.symm.trans hk')
  refine ⟨h.read, le_rfl, hkm, ns, hseq, hsorted, hns, ?_⟩
  intro store' hlive'
  obtain rfl : store = store' := Option.some.inj (hlive.symm.trans hlive')
  exact ⟨k, hk, le_rfl, hkm, hbelow⟩

/-- The mark cannot be read, and no process ever came up. -/
def Unreadable (s : Site rt) : Prop :=
  (∃ e, s.epochs.read = .error e) ∧ s.live = none ∧ s.installed = []

/-- A process dies and leaves the mark where it was or higher. -/
theorem Marked.die {m m' : Int} (h : s.Marked base low m) {epochs : EpochStore}
    (hread : epochs.read = .ok (.int m')) (hle : m ≤ m') :
    Marked base low ({ s with epochs := epochs, live := none } : Site rt) m' := by
  obtain ⟨ns, hseq, hsorted, hns, -⟩ := h.installed
  exact ⟨hread, h.base_le.trans hle, h.low_le.trans hle, ns, hseq, hsorted,
    fun n hn => (hns n hn).trans hle, fun store hlive => by cases hlive⟩

/-- A bundle above the live store's sequence is added to the history, with the mark at least
as high. -/
theorem Marked.extend {m m' n : Int} (h : s.Marked base low m) {store : BundleStore rt}
    (hlive : s.live = some store) {k : Int} (hk : store.sequence = .int k) {bundle : WireBundle}
    (hn : bundle.sequence = .int n) (hlt : k < n) {epochs : EpochStore}
    (hread : epochs.read = .ok (.int m')) (hle : m ≤ m') (hnm : n ≤ m')
    (live : Option (BundleStore rt))
    (hlive' : ∀ store', live = some store' → store'.sequence = .int n) :
    Marked base low ⟨epochs, live, s.installed ++ [bundle]⟩ m' := by
  obtain ⟨ns, hseq, hsorted, hns, hstore⟩ := h.installed
  obtain ⟨k', hk', hlow, -, hbelow⟩ := hstore store hlive
  rw [hk] at hk'
  obtain rfl : k = k' := Value.int.inj hk'
  have hlast : ∀ x ∈ ns, x < n := fun x hx => (hbelow x hx).trans_lt hlt
  refine ⟨hread, h.base_le.trans hle, h.low_le.trans hle, ns ++ [n], ?_, ?_, ?_, ?_⟩
  · simp [hseq, hn]
  · rw [List.pairwise_append]
    exact ⟨hsorted, List.pairwise_singleton _ _, fun x hx y hy => by
      rw [List.mem_singleton.mp hy]; exact hlast x hx⟩
  · intro x hx
    rcases List.mem_append.mp hx with hx | hx
    · exact (hns x hx).trans hle
    · rw [List.mem_singleton.mp hx]
      exact hnm
  · intro store' hs
    refine ⟨n, hlive' store' hs, hlow.trans hlt.le, hnm, ?_⟩
    intro x hx
    rcases List.mem_append.mp hx with hx | hx
    · exact (hlast x hx).le
    · exact (List.mem_singleton.mp hx).le

theorem between_le {m n : Int} {epochs : EpochStore} (h : EpochStore.Between m n epochs) :
    ∃ m', epochs.read = .ok (.int m') ∧ m ≤ m' := by
  rcases h with ⟨m', hread, rfl | ⟨rfl, hlt⟩⟩
  · exact ⟨_, hread, le_rfl⟩
  · exact ⟨_, hread, hlt.le⟩

/-! ## Steps -/

section Steps
variable {m : Int} (h : s.Marked base low m)
include h

theorem marked_start (trustedKey : rt.PublicKey) (expectedIssuer siteId : String)
    (signedFloor : Bytes) (floorLinks : Option (List Link)) (readFault : Option Exc) :
    ∃ m', Marked base low
      (s.step (.start trustedKey expectedIssuer siteId signedFloor floorLinks readFault)) m' := by
  simp only [step]
  cases hlive : s.live with
  | some store => exact ⟨m, h⟩
  | none =>
    obtain ⟨ns, hseq, hsorted, hns, -⟩ := h.installed
    refine ⟨m, h.read, h.base_le, h.low_le, ns, hseq, hsorted, hns, ?_⟩
    intro store hstore
    cases hinit : BundleStore.init trustedKey expectedIssuer siteId signedFloor floorLinks s.epochs
      readFault with
    | error e =>
      simp only [hinit] at hstore
      cases hstore
    | ok built =>
      simp only [hinit] at hstore
      cases hstore
      obtain ⟨floor, sequence, -, -, hread, rfl⟩ := BundleStore.init_ok.mp hinit
      rw [h.read] at hread
      exact ⟨m, (Except.ok.inj hread).symm, h.low_le, le_rfl, hns⟩

theorem marked_accept (envelopeBytes : Bytes) (now : DateTime) (faults : EpochFaults)
    (hint : IntegerSequence rt envelopeBytes) :
    ∃ m', Marked base low (s.step (.accept envelopeBytes now faults)) m' := by
  simp only [step]
  cases hlive : s.live with
  | none => exact ⟨m, h⟩
  | some store =>
    obtain ⟨ns, hseq, hsorted, hns, hstore⟩ := h.installed
    obtain ⟨k, hk, hlow, hkm, hbelow⟩ := hstore store hlive
    dsimp only
    generalize hr : store.accept s.epochs faults envelopeBytes now = r
    have hcases := BundleStore.accept_cases store s.epochs faults envelopeBytes now
    rw [hr] at hcases
    -- a store that is left as it was, over a mark that has not fallen
    have hsame {epochs : EpochStore} {m' : Int} (hread : epochs.read = .ok (.int m')) (hle : m ≤ m') :
        Marked base low ⟨epochs, some store, s.installed ++ []⟩ m' := by
      refine ⟨hread, h.base_le.trans hle, h.low_le.trans hle, ns, by simpa using hseq, hsorted,
        fun n hn => (hns n hn).trans hle, fun store' hs => ?_⟩
      cases hs
      exact ⟨k, hk, hlow, hkm.trans hle, hbelow⟩
    -- the mark may already be the new one: what is raised after the replacement does not undo it
    have hraised {envelope : Envelope} {bundle : WireBundle}
        (admitted : store.Admitted envelopeBytes now envelope bundle) :
        ∃ m', Marked base low ⟨(s.epochs.commit faults bundle.sequence).2, some store,
          s.installed ++ []⟩ m' := by
      obtain ⟨n, hn, -⟩ := admitted.sequence hint hk
      obtain ⟨m', hread, hle⟩ := between_le (EpochStore.between_commit faults n h.read)
      rw [← hn] at hread
      exact ⟨m', hsame hread hle⟩
    cases hcases with
    | refused e => exact ⟨m, hsame h.read le_rfl⟩
    | uncommitted envelope bundle e admitted failed => exact hraised admitted
    | unrecorded envelope bundle e admitted committed unhashable => exact hraised admitted
    | installed envelope bundle admitted committed hashable =>
      obtain ⟨n, hn, hlt⟩ := admitted.sequence hint hk
      obtain ⟨m', hread, hle⟩ := between_le (EpochStore.between_commit faults n h.read)
      obtain ⟨m'', hread', hnm⟩ := EpochStore.read_of_commit_ok h.read (hn ▸ committed)
      obtain rfl : m' = m'' := Value.int.inj (Except.ok.inj (hread.symm.trans hread'))
      rw [← hn] at hread
      refine ⟨m', h.extend hlive hk hn hlt hread hle hnm _ ?_⟩
      intro store' hs
      cases hs
      exact hn

theorem marked_crashInAccept (envelopeBytes : Bytes) (now : DateTime) (faults : EpochFaults)
    (performed : Nat) (hint : IntegerSequence rt envelopeBytes) :
    ∃ m', Marked base low (s.step (.crashInAccept envelopeBytes now faults performed)) m' := by
  simp only [step]
  cases hlive : s.live with
  | none => exact ⟨m, h⟩
  | some store =>
    dsimp only
    cases hvet : store.vet envelopeBytes now with
    | error e => exact ⟨m, h.die h.read le_rfl⟩
    | ok admitted =>
      obtain ⟨bundle, nonce⟩ := admitted
      obtain ⟨envelope, hadmitted, -⟩ := BundleStore.vet_ok.mp hvet
      obtain ⟨k, hk, -⟩ := h.live_sequence hlive
      obtain ⟨n, hn, hlt⟩ := hadmitted.sequence hint hk
      obtain ⟨m', hread, hle⟩ :=
        between_le (EpochStore.between_commitSteps faults n h.read performed)
      dsimp only [killed]
      rw [hn]
      split_ifs with hdone
      · -- the commit was complete, so what it put on record is at least the bundle's sequence
        have hall : ((s.epochs.commitSteps faults (.int n)).2.take performed) =
            (s.epochs.commitSteps faults (.int n)).2 := List.take_of_length_le (by omega)
        have hok : (s.epochs.commit faults (.int n)).1 = .ok () := by
          cases hres : (s.epochs.commitSteps faults (.int n)).1 with
          | error e => simp [hres, Except.isOk, Except.toBool] at hdone
          | ok u => exact hres
        obtain ⟨m'', hread', hnm⟩ := EpochStore.read_of_commit_ok h.read hok
        have hread'' := hread
        rw [hall] at hread''
        obtain rfl : m' = m'' := Value.int.inj (Except.ok.inj (hread''.symm.trans hread'))
        exact ⟨m', h.extend hlive hk hn hlt hread hle hnm none fun _ hs => by cases hs⟩
      · exact ⟨m', h.die hread hle⟩

/-- Every step keeps the site in order. -/
theorem marked_step (event : SiteEvent rt) (hint : event.IntegerSequences) :
    ∃ m', Marked base low (s.step event) m' := by
  cases event with
  | start trustedKey expectedIssuer siteId signedFloor floorLinks readFault =>
    exact marked_start h trustedKey expectedIssuer siteId signedFloor floorLinks readFault
  | accept envelopeBytes now faults => exact marked_accept h envelopeBytes now faults hint
  | crash => exact ⟨m, h.die h.read le_rfl⟩
  | crashInAccept envelopeBytes now faults performed =>
    exact marked_crashInAccept h envelopeBytes now faults performed hint

end Steps

/-- A mark that cannot be read keeps every process from coming up. -/
theorem unreadable_step (h : s.Unreadable) (event : SiteEvent rt) : (s.step event).Unreadable := by
  obtain ⟨⟨e, hread⟩, hlive, hinstalled⟩ := h
  cases event with
  | start trustedKey expectedIssuer siteId signedFloor floorLinks readFault =>
    simp only [step, hlive]
    cases hinit : BundleStore.init trustedKey expectedIssuer siteId signedFloor floorLinks s.epochs
      readFault with
    | error e' => exact ⟨⟨e, hread⟩, rfl, hinstalled⟩
    | ok built =>
      obtain ⟨_, _, _, _, hok, _⟩ := BundleStore.init_ok.mp hinit
      rw [hread] at hok
      cases hok
  | crash => exact ⟨⟨e, hread⟩, rfl, hinstalled⟩
  | accept envelopeBytes now faults =>
    simp only [step, hlive]
    exact ⟨⟨e, hread⟩, hlive, hinstalled⟩
  | crashInAccept envelopeBytes now faults performed =>
    simp only [step, hlive]
    exact ⟨⟨e, hread⟩, hlive, hinstalled⟩

/-! ## Runs -/

theorem marked_run {m : Int} (h : s.Marked base low m) {events : List (SiteEvent rt)}
    (hint : ∀ event ∈ events, event.IntegerSequences) :
    ∃ m', (Run.run step s events).Marked base low m' :=
  Run.run_invariant (I := fun s : Site rt => ∃ m, s.Marked base low m)
    (fun _ event ⟨_, hm⟩ he => marked_step hm event he) ⟨m, h⟩ hint

theorem unreadable_run (h : s.Unreadable) (events : List (SiteEvent rt)) :
    (Run.run step s events).Unreadable :=
  Run.run_invariant (I := Unreadable) (fun _ event hs (_ : True) => unreadable_step hs event) h
    fun _ _ => trivial

theorem marked_fresh {epochs : EpochStore} {m : Int} (h : epochs.read = .ok (.int m)) :
    (fresh epochs : Site rt).Marked m m m :=
  ⟨h, le_rfl, le_rfl, [], rfl, .nil, by simp, fun _ hlive => by cases hlive⟩

end Site

/-- Between an earlier and a later point of a run nothing was rolled back: the sequences
installed so far increase, the mark is at least every one of them, and neither the mark nor a
store's sequence has fallen. -/
structure NoRollback {rt : Runtime} (earlier later : Site rt) : Prop where
  increasing : ∃ ns : List Int, later.installed.map (·.sequence) = ns.map .int ∧
    ns.Pairwise (· < ·) ∧ ∀ n ∈ ns, ∃ m, later.epochs.read = .ok (.int m) ∧ n ≤ m
  mark_le : ∀ m, earlier.epochs.read = .ok (.int m) →
    ∃ m', later.epochs.read = .ok (.int m') ∧ m ≤ m'
  sequence_le : ∀ store store', earlier.live = some store → later.live = some store' →
    ∃ k k', store.sequence = .int k ∧ store'.sequence = .int k' ∧ k ≤ k'

/-- No policy rollback over any run of one site, whatever is delivered, whatever fails and
wherever processes are killed and restarted. -/
theorem no_rollback {rt : Runtime} {epochs : EpochStore} (hmark : IntegerMark epochs)
    {before after : List (SiteEvent rt)}
    (hint : ∀ event ∈ before ++ after, event.IntegerSequences) :
    NoRollback (Run.run Site.step (Site.fresh epochs) before)
      (Run.run Site.step (Site.fresh epochs) (before ++ after)) := by
  rw [Run.run_append]
  generalize hs : Run.run Site.step (Site.fresh epochs) before = earlier
  have hafter : ∀ event ∈ after, event.IntegerSequences :=
    fun event he => hint event (List.mem_append_right _ he)
  cases hread : epochs.read with
  | error e =>
    -- no process ever came up, so nothing was installed
    have hearlier : earlier.Unreadable := hs ▸ Site.unreadable_run ⟨⟨e, hread⟩, rfl, rfl⟩ before
    obtain ⟨-, -, hinstalled⟩ := Site.unreadable_run hearlier after
    obtain ⟨⟨e', hread'⟩, hlive, -⟩ := hearlier
    refine ⟨⟨[], by rw [hinstalled]; rfl, .nil, by simp⟩, fun m hm => ?_, fun store _ hs => ?_⟩
    · rw [hread'] at hm
      cases hm
    · rw [hlive] at hs
      cases hs
  | ok v =>
    -- the invariant up to the earlier point, then again from there with its own bounds
    obtain ⟨m₀, rfl⟩ := hmark v hread
    obtain ⟨m, hearlier⟩ : ∃ m, earlier.Marked m₀ m₀ m := hs ▸ Site.marked_run
      (Site.marked_fresh hread) fun event he => hint event (List.mem_append_left _ he)
    refine ⟨?_, fun m' hm' => ?_, fun store store' hlive hlive' => ?_⟩
    · obtain ⟨m', hlater⟩ := Site.marked_run hearlier hafter
      obtain ⟨ns, hseq, hsorted, hns, -⟩ := hlater.installed
      exact ⟨ns, hseq, hsorted, fun n hn => ⟨m', hlater.read, hns n hn⟩⟩
    · obtain rfl : m = m' := Value.int.inj (Except.ok.inj (hearlier.read.symm.trans hm'))
      obtain ⟨m', hlater⟩ := Site.marked_run hearlier.raise.1 hafter
      exact ⟨m', hlater.read, hlater.base_le⟩
    · obtain ⟨k, hk, -⟩ := hearlier.live_sequence hlive
      obtain ⟨m', hlater⟩ := Site.marked_run (hearlier.raise.2 store k hlive hk) hafter
      obtain ⟨k', hk', hle, -⟩ := hlater.live_sequence hlive'
      exact ⟨k, k', hk, hk', hle⟩

/-- A process accepts one bundle, another dies inside `accept` of the next with the mark already
replaced, and a third is handed both again. -/
theorem no_rollback_sample :
    let start := SiteEvent.start (standIn.publicKey Sample.signer.key) "authority-1" "site-1"
      Sample.signedFloor none none
    let before := [start, .accept (Sample.envelope 1 0) (Sample.clock 60) {}]
    let after := [.crash, start, .crashInAccept (Sample.envelope 2 1) (Sample.clock 120) {} 3, start,
      .accept (Sample.envelope 1 0) (Sample.clock 180) {},
      .accept (Sample.envelope 2 1) (Sample.clock 180) {}]
    NoRollback
      (Run.run Site.step (Site.fresh (.file ⟨"epoch", none, []⟩)) before)
      (Run.run Site.step (Site.fresh (.file ⟨"epoch", none, []⟩)) (before ++ after)) := by
  have hint (n : Int) (nonce : UInt8) : IntegerSequence standIn (Sample.envelope n nonce) :=
    integerSequence_publish lawful_standIn List.length_replicate (Sample.publish_bundle n nonce)
  intro start before after
  refine no_rollback (integerMark_file _) ?_
  simp [before, after, start, SiteEvent.IntegerSequences, hint]

end Pilotfish
