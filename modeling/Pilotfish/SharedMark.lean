import Pilotfish.Rollback
import Mathlib.Logic.Function.Basic

/-!
# Two processes over one file

An old agent may still be running while its replacement starts. Each store compares a bundle with
the sequence it read when it was built, and a commit reads the mark, compares with it and replaces
the file without a lock.

Results:
1. `run_delivery`: the steps of a delivery that nobody disturbs are a call of `accept`.
2. `inOrder_step`: what an undisturbed step keeps of the mark, the sequences that were committed
   and the deliveries that are under way.
3. `safe_of_undisturbed`: the mark never falls, and nothing is installed that is not above all
   that was committed before it, over every run of undisturbed steps.
-/

namespace Pilotfish
open Python

/-- A process that has built a store, or the lack of one. -/
inductive Process (rt : Runtime)
  | down
  /-- Between two calls. -/
  | idle (store : BundleStore rt)
  /-- `accept` has checked a bundle against the store's own sequence. -/
  | checked (store : BundleStore rt) (bundle : WireBundle) (nonce : Value)
  /-- `commit` has read a mark below the bundle's sequence. -/
  | writing (store : BundleStore rt) (bundle : WireBundle) (nonce : Value)
  /-- `commit` has returned. -/
  | committed (store : BundleStore rt) (bundle : WireBundle) (nonce : Value)

/-- What a process does without interruption; the operating system may fail a file operation. -/
inductive Move (rt : Runtime)
  | start (trustedKey : rt.PublicKey) (expectedIssuer siteId : String) (signedFloor : Bytes)
      (floorLinks : Option (List Link)) (readFault : Option Exc)
  | check (envelopeBytes : Bytes) (now : DateTime)
  | read (fault : Option Exc)
  | replace (fault : Option Exc)
  | install
  | kill

/-- The delivered bundle, if one is, has an integer for its sequence. -/
def Move.IntegerSequences {rt : Runtime} : Move rt → Prop
  | .check envelopeBytes _ => IntegerSequence rt envelopeBytes
  | _ => True

/-- The file and the processes over it. `committed` is a history: the mark that was found, and
every sequence the file was replaced by with the process that did, the last one first. -/
structure Host (ι : Type) (rt : Runtime) where
  file : EpochFile
  process : ι → Process rt
  committed : List (Option ι × Value)

namespace Host

variable {ι : Type} [DecidableEq ι] {rt : Runtime}

def mark (s : Host ι rt) : Except Exc Value := (EpochStore.file s.file).read

/-- A host where no process has run. -/
def fresh (file : EpochFile) : Host ι rt :=
  ⟨file, fun _ => .down, (EpochStore.file file).read.toOption.toList.map (none, ·)⟩

/-- One process moves on. -/
def put (s : Host ι rt) (i : ι) (p : Process rt) : Host ι rt :=
  { s with process := Function.update s.process i p }

/-- The file is replaced; the temporary one was the process's own. -/
def replaced (s : Host ι rt) (i : ι) (sequence : Value) : Host ι rt :=
  { s with
    file := { s.file with mark := some (sequence.text.toList ++ ['\n']) }
    committed := (some i, sequence) :: s.committed }

def step (s : Host ι rt) : ι × Move rt → Host ι rt
  | (i, move) =>
      match move, s.process i with
      | .start trustedKey expectedIssuer siteId signedFloor floorLinks readFault, .down =>
          match BundleStore.init trustedKey expectedIssuer siteId signedFloor floorLinks
            (.file s.file) readFault with
          | .error _ => s
          | .ok store => s.put i (.idle store)
      | .check envelopeBytes now, .idle store =>
          match store.vet envelopeBytes now with
          | .error _ => s
          | .ok (bundle, nonce) => s.put i (.checked store bundle nonce)
      | .read fault, .checked store bundle nonce =>
          match fault.elim s.mark .error with
          | .error _ => s.put i (.idle store)
          | .ok current =>
              match bundle.sequence.le current with
              | .error _ => s.put i (.idle store)
              -- committing at or below the mark is a no-op, not an error
              | .ok true => s.put i (.committed store bundle nonce)
              | .ok false => s.put i (.writing store bundle nonce)
      | .replace fault, .writing store bundle nonce =>
          -- a sequence of too many digits fails as it is written
          match fault.or (if bundle.sequence.printable then none else some Value.digitsLimit) with
          | some _ => s.put i (.idle store)
          | none => (s.replaced i bundle.sequence).put i (.committed store bundle nonce)
      | .install, .committed store bundle nonce =>
          match nonce.hashable with
          | .error _ => s.put i (.idle store)
          | .ok () => s.put i (.idle (store.install bundle nonce))
      | .kill, _ => s.put i .down
      | _, _ => s

/-! ## One process on its own -/

variable {s : Host ι rt} {i : ι} {store : BundleStore rt}

@[simp] theorem file_put (s : Host ι rt) (i : ι) (p : Process rt) : (s.put i p).file = s.file := rfl
@[simp] theorem mark_put (s : Host ι rt) (i : ι) (p : Process rt) : (s.put i p).mark = s.mark := rfl
@[simp] theorem committed_put (s : Host ι rt) (i : ι) (p : Process rt) :
    (s.put i p).committed = s.committed := rfl
@[simp] theorem process_put_self (s : Host ι rt) (i : ι) (p : Process rt) :
    (s.put i p).process i = p := by
  simp [put]
omit [DecidableEq ι] in
@[simp] theorem file_replaced (s : Host ι rt) (i : ι) (v : Value) :
    (s.replaced i v).file = { s.file with mark := some (v.text.toList ++ ['\n']) } := rfl

omit [DecidableEq ι] in
theorem mark_replaced (s : Host ι rt) (i : ι) {n : Int}
    (hprintable : (Value.int n).printable = true) :
    (s.replaced i (.int n)).mark = .ok (.int n) := EpochStore.read_file_mark hprintable rfl

theorem process_put_of_ne {j : ι} (h : j ≠ i) (s : Host ι rt) (p : Process rt) :
    (s.put i p).process j = s.process j := by
  simp [put, h]

section Commit
variable {file : EpochFile} {faults : EpochFaults} {sequence current : Value} {e : Exc}

theorem commit_unread (sequence : Value)
    (h : faults.read.elim (EpochStore.file file).read .error = .error e) :
    (EpochStore.file file).commit faults sequence = (.error e, .file file) := by
  simp [EpochStore.commit, EpochStore.commitSteps, EpochStore.performAll, h]

variable (h : faults.read.elim (EpochStore.file file).read .error = .ok current)
include h

theorem commit_incomparable (hle : sequence.le current = .error e) :
    (EpochStore.file file).commit faults sequence = (.error e, .file file) := by
  simp [EpochStore.commit, EpochStore.commitSteps, EpochStore.performAll, h, hle]

theorem commit_noop (hle : sequence.le current = .ok true) :
    (EpochStore.file file).commit faults sequence = (.ok (), .file file) := by
  simp [EpochStore.commit, EpochStore.commitSteps, EpochStore.performAll, h, hle]

variable (hle : sequence.le current = .ok false)
include hle

theorem commit_written (hfault : faults.mkstemp.or (faults.write.or faults.replace) = none)
    (hprintable : sequence.printable = true) :
    (EpochStore.file file).commit faults sequence =
      (.ok (), .file { file with mark := some (sequence.text.toList ++ ['\n']) }) := by
  simp only [Option.or_eq_none_iff] at hfault
  obtain ⟨hmkstemp, hwrite, hreplace⟩ := hfault
  simp [EpochStore.commit, EpochStore.commitSteps, EpochStore.performAll, EpochStore.perform, h,
    hle, hprintable, hmkstemp, hwrite, hreplace]

/-- A write that fails leaves the mark. -/
theorem commit_unwritten
    (hfault : (faults.mkstemp.or (faults.write.or faults.replace)).or
      (if sequence.printable then none else some Value.digitsLimit) = some e) :
    (∃ e', ((EpochStore.file file).commit faults sequence).1 = .error e') ∧
    ((EpochStore.file file).commit faults sequence).2.bare = (EpochStore.file file).bare := by
  have hfailed : ¬(EpochStore.file file).Moves faults sequence := by
    rintro ⟨-, hprintable, -, hmkstemp, hwrite, hreplace⟩
    rw [hmkstemp, hwrite, hreplace, hprintable] at hfault
    cases hfault
  refine ⟨?_, EpochStore.bare_commit_of_not_moves hfailed⟩
  rcases EpochStore.commitSteps_file file faults sequence with
    ⟨hmoves, -⟩ | ⟨⟨found, hfound, hnoop⟩, -⟩ | ⟨hraised, -⟩
  · exact absurd hmoves hfailed
  · cases hread : faults.read with
    | some e' =>
      rw [hread] at h
      cases h
    | none =>
      rw [hread] at h
      cases h.symm.trans hfound
      cases hle.symm.trans hnoop
  · exact hraised

end Commit

section Step
variable {bundle : WireBundle} {nonce : Value}

theorem step_start (h : s.process i = .down) (trustedKey : rt.PublicKey)
    (expectedIssuer siteId : String) (signedFloor : Bytes) (floorLinks : Option (List Link))
    (readFault : Option Exc) :
    s.step (i, .start trustedKey expectedIssuer siteId signedFloor floorLinks readFault) =
      match BundleStore.init trustedKey expectedIssuer siteId signedFloor floorLinks
        (.file s.file) readFault with
      | .error _ => s
      | .ok store => s.put i (.idle store) := by
  simp only [step, h]

theorem step_check (h : s.process i = .idle store) (envelopeBytes : Bytes) (now : DateTime) :
    s.step (i, .check envelopeBytes now) =
      match store.vet envelopeBytes now with
      | .error _ => s
      | .ok (bundle, nonce) => s.put i (.checked store bundle nonce) := by
  simp only [step, h]

theorem step_read (h : s.process i = .checked store bundle nonce) (fault : Option Exc) :
    s.step (i, .read fault) =
      match fault.elim s.mark .error with
      | .error _ => s.put i (.idle store)
      | .ok current =>
          match bundle.sequence.le current with
          | .error _ => s.put i (.idle store)
          | .ok true => s.put i (.committed store bundle nonce)
          | .ok false => s.put i (.writing store bundle nonce) := by
  simp only [step, h]

theorem step_replace (h : s.process i = .writing store bundle nonce) (fault : Option Exc) :
    s.step (i, .replace fault) =
      match fault.or (if bundle.sequence.printable then none else some Value.digitsLimit) with
      | some _ => s.put i (.idle store)
      | none => (s.replaced i bundle.sequence).put i (.committed store bundle nonce) := by
  simp only [step, h]

theorem step_install (h : s.process i = .committed store bundle nonce) :
    s.step (i, .install) =
      match nonce.hashable with
      | .error _ => s.put i (.idle store)
      | .ok () => s.put i (.idle (store.install bundle nonce)) := by
  simp only [step, h]

/-- The moves of a delivery that was refused do nothing. -/
theorem step_idle (h : s.process i = .idle store) :
    (∀ fault, s.step (i, .read fault) = s) ∧ (∀ fault, s.step (i, .replace fault) = s) ∧
    s.step (i, .install) = s := by
  simp only [step, h, implies_true, and_self]

/-- So does replacing the file where that was not necessary. -/
theorem step_replace_committed (h : s.process i = .committed store bundle nonce)
    (fault : Option Exc) : s.step (i, .replace fault) = s := by
  simp only [step, h]

end Step

/-- The moves of a delivery. -/
def delivery (i : ι) (envelopeBytes : Bytes) (now : DateTime) (faults : EpochFaults) :
    List (ι × Move rt) :=
  [(i, .check envelopeBytes now), (i, .read faults.read),
    (i, .replace (faults.mkstemp.or (faults.write.or faults.replace))), (i, .install)]

section Delivered
variable {file : EpochFile} {faults : EpochFaults} {envelopeBytes : Bytes} {now : DateTime}
  {envelope : Envelope} {bundle : WireBundle}

omit [DecidableEq ι] in
/-- A process whose commit raised is where `accept` leaves its store. -/
theorem delivered_of_uncommitted (hadmitted : store.Admitted envelopeBytes now envelope bundle)
    {e : Exc} (hfailed : ((EpochStore.file file).commit faults bundle.sequence).1 = .error e)
    (hprocess : s.process i = .idle store) (hbare : (EpochStore.file s.file).bare =
      ((EpochStore.file file).commit faults bundle.sequence).2.bare) :
    s.process i = .idle (store.accept (.file file) faults envelopeBytes now).2.1 ∧
    (EpochStore.file s.file).bare =
      (store.accept (.file file) faults envelopeBytes now).2.2.bare := by
  rw [BundleStore.accept_of_uncommitted hadmitted hfailed]
  exact ⟨hprocess, hbare⟩

/-- One whose commit returned is, once it has installed the bundle. -/
theorem delivered_of_committed (hadmitted : store.Admitted envelopeBytes now envelope bundle)
    (hcommit : ((EpochStore.file file).commit faults bundle.sequence).1 = .ok ())
    (hprocess : s.process i = .committed store bundle envelope.nonce)
    (hbare : (EpochStore.file s.file).bare =
      ((EpochStore.file file).commit faults bundle.sequence).2.bare) :
    (s.step (i, .install)).process i =
      .idle (store.accept (.file file) faults envelopeBytes now).2.1 ∧
    (EpochStore.file (s.step (i, .install)).file).bare =
      (store.accept (.file file) faults envelopeBytes now).2.2.bare := by
  rw [BundleStore.accept_of_committed hadmitted hcommit, step_install hprocess]
  cases envelope.nonce.hashable with
  | error e => exact ⟨process_put_self s i _, hbare⟩
  | ok u => exact ⟨process_put_self s i _, hbare⟩

end Delivered

/-- When nobody disturbs them, the process has its store and the file its mark as after a call of
`accept`. -/
theorem run_delivery (h : s.process i = .idle store) (envelopeBytes : Bytes) (now : DateTime)
    (faults : EpochFaults) :
    (Run.run step s (delivery i envelopeBytes now faults)).process i =
      .idle (store.accept (.file s.file) faults envelopeBytes now).2.1 ∧
    (EpochStore.file (Run.run step s (delivery i envelopeBytes now faults)).file).bare =
      (store.accept (.file s.file) faults envelopeBytes now).2.2.bare := by
  simp only [delivery, Run.run_cons, Run.run_nil]
  rw [step_check h]
  cases hvet : store.vet envelopeBytes now with
  | error e =>
    obtain ⟨hread, hreplace, hinstall⟩ := step_idle h
    rw [BundleStore.accept_of_refused hvet, hread, hreplace, hinstall]
    exact ⟨h, rfl⟩
  | ok admitted =>
    obtain ⟨bundle, nonce⟩ := admitted
    obtain ⟨envelope, hadmitted, rfl⟩ := BundleStore.vet_ok.mp hvet
    dsimp only
    rw [step_read (process_put_self s i _), mark_put]
    have hidle (t : Host ι rt) := step_idle (process_put_self t i (.idle store))
    -- what is read of the mark decides between the branches of `commit`
    cases hread : faults.read.elim s.mark .error with
    | error e =>
      have hcommit := commit_unread bundle.sequence hread
      dsimp only
      rw [(hidle _).2.1, (hidle _).2.2]
      exact delivered_of_uncommitted hadmitted (congrArg Prod.fst hcommit) (process_put_self _ i _)
        (by rw [hcommit]; rfl)
    | ok current =>
      dsimp only
      cases hle : bundle.sequence.le current with
      | error e =>
        have hcommit := commit_incomparable hread hle
        dsimp only
        rw [(hidle _).2.1, (hidle _).2.2]
        exact delivered_of_uncommitted hadmitted (congrArg Prod.fst hcommit)
          (process_put_self _ i _) (by rw [hcommit]; rfl)
      | ok superseded =>
        cases superseded with
        | true =>
          have hcommit := commit_noop hread hle
          dsimp only
          rw [step_replace_committed (process_put_self _ i _)]
          exact delivered_of_committed hadmitted (congrArg Prod.fst hcommit)
            (process_put_self _ i _) (by rw [hcommit]; rfl)
        | false =>
          dsimp only
          rw [step_replace (process_put_self _ i _)]
          cases hfault : (faults.mkstemp.or (faults.write.or faults.replace)).or
            (if bundle.sequence.printable then none else some Value.digitsLimit) with
          | some e =>
            obtain ⟨⟨e', hfailed⟩, hbare⟩ := commit_unwritten hread hle hfault
            dsimp only
            rw [(hidle _).2.2]
            exact delivered_of_uncommitted hadmitted hfailed (process_put_self _ i _) hbare.symm
          | none =>
            obtain ⟨hfault, hprintable⟩ := Option.or_eq_none_iff.mp hfault
            have hcommit := commit_written hread hle hfault (by
              simpa using hprintable)
            exact delivered_of_committed hadmitted (congrArg Prod.fst hcommit)
              (process_put_self _ i _) (by rw [hcommit]; rfl)

/-! ## Undisturbed steps -/

/-- A process that lets another one replace the file by a sequence: it is not between its own
replacement and the installation, and what it is about to write is higher. -/
def Allows (sequence : Value) : Process rt → Prop
  | .writing _ bundle _ => sequence.lt bundle.sequence = .ok true
  | .committed _ _ _ => False
  | _ => True

/-- A commit finds a mark below its sequence, and no process is disturbed by a replacement. -/
def Undisturbed (s : Host ι rt) : ι × Move rt → Prop
  | (i, .read none) => ∀ store bundle nonce current, s.process i = .checked store bundle nonce →
      s.mark = .ok current → bundle.sequence.le current = .ok false
  | (i, .replace none) => ∀ store bundle nonce, s.process i = .writing store bundle nonce →
      ∀ j, j ≠ i → Allows bundle.sequence (s.process j)
  | _ => True

/-- The mark does not fall, and what is installed is above all that was committed to the file, its
own commit apart. -/
structure Safe (s : Host ι rt) (e : ι × Move rt) : Prop where
  mark_le : ∀ m, s.mark = .ok m → ∃ m', (s.step e).mark = .ok m' ∧ m.le m' = .ok true
  installs_above : ∀ i store bundle nonce, e = (i, .install) →
    s.process i = .committed store bundle nonce → ∃ earlier,
      s.committed = (some i, bundle.sequence) :: earlier ∧
      ∀ c ∈ earlier, bundle.sequence.le c.2 = .ok false

/-- Where the mark is `m` and was committed by `owner`: every sequence is an integer, what is about
to be written is above the mark, and what is about to be installed is the mark. -/
def Ready (i : ι) (m : Int) (owner : Option ι) : Process rt → Prop
  | .down => True
  | .idle store => ∃ k, store.sequence = .int k
  | .checked store bundle _ => (∃ k, store.sequence = .int k) ∧ ∃ n, bundle.sequence = .int n
  | .writing store bundle _ => (∃ k, store.sequence = .int k) ∧ ∃ n, bundle.sequence = .int n ∧ m < n
  | .committed store bundle _ =>
      (∃ k, store.sequence = .int k) ∧ bundle.sequence = .int m ∧ owner = some i

/-- The mark is `m`, and `m` was committed last and by `owner`. -/
structure InOrder (s : Host ι rt) (m : Int) (owner : Option ι) : Prop where
  mark : s.mark = .ok (.int m)
  committed : ∃ earlier, s.committed = (owner, .int m) :: earlier ∧
    ∀ c ∈ earlier, ∃ k, c.2 = .int k ∧ k < m
  process : ∀ i, Ready i m owner (s.process i)

section InOrder
variable {m : Int} {owner : Option ι} (h : s.InOrder m owner)
include h

theorem InOrder.put {p : Process rt} (hp : Ready i m owner p) : (s.put i p).InOrder m owner := by
  refine ⟨h.mark, h.committed, ?_⟩
  intro j
  by_cases hj : j = i
  · rw [hj, process_put_self]
    exact hp
  · rw [process_put_of_ne hj]
    exact h.process j

theorem inOrder_start {trustedKey : rt.PublicKey} {expectedIssuer siteId : String}
    {signedFloor : Bytes} {floorLinks : Option (List Link)} {readFault : Option Exc}
    (hstart : BundleStore.init trustedKey expectedIssuer siteId signedFloor floorLinks
      (.file s.file) readFault = .ok store) : (s.put i (.idle store)).InOrder m owner := by
  obtain ⟨floor, sequence, -, -, hread, rfl⟩ := BundleStore.init_ok.mp hstart
  obtain rfl : sequence = .int m := Except.ok.inj (hread.symm.trans h.mark)
  exact h.put ⟨m, rfl⟩

theorem inOrder_check (hp : s.process i = .idle store) {envelopeBytes : Bytes} {now : DateTime}
    (hint : IntegerSequence rt envelopeBytes) {bundle : WireBundle} {nonce : Value}
    (hvet : store.vet envelopeBytes now = .ok (bundle, nonce)) :
    (s.put i (.checked store bundle nonce)).InOrder m owner := by
  have hi := h.process i
  rw [hp] at hi
  obtain ⟨k, hk⟩ := hi
  obtain ⟨envelope, hadmitted, -⟩ := BundleStore.vet_ok.mp hvet
  obtain ⟨n, hn, -⟩ := hadmitted.sequence hint hk
  exact h.put ⟨⟨k, hk⟩, n, hn⟩

section
variable {bundle : WireBundle} {nonce : Value}

/-- The mark that is read is below the sequence. -/
theorem inOrder_read (hp : s.process i = .checked store bundle nonce) (fault : Option Exc)
    (hund : s.Undisturbed (i, .read fault)) : (s.step (i, .read fault)).InOrder m owner := by
  have hi := h.process i
  rw [hp] at hi
  obtain ⟨hk, n, hn⟩ := hi
  rw [step_read hp]
  cases fault with
  | some e => exact h.put hk
  | none =>
    have hle := hund store bundle nonce (.int m) hp h.mark
    rw [Option.elim_none, h.mark]
    dsimp only
    rw [hle]
    rw [hn, Value.le_int, Except.ok.injEq, decide_eq_false_iff_not, not_le] at hle
    exact h.put ⟨hk, n, hn, hle⟩

omit [DecidableEq ι] h in
/-- A process that allows the file to be replaced is as ready for the new mark, whoever owns it. -/
theorem Ready.replaced {j : ι} {n : Int} {owner' : Option ι} {p : Process rt}
    (hready : Ready j m owner p) (hallows : Allows (.int n) p) : Ready j n owner' p := by
  cases p with
  | down => trivial
  | idle store => exact hready
  | checked store bundle nonce => exact hready
  | writing store bundle nonce =>
    obtain ⟨hk, n', hn', -⟩ := hready
    rw [Allows, hn', Value.lt_int, Except.ok.injEq, decide_eq_true_eq] at hallows
    exact ⟨hk, n', hn', hallows⟩
  | committed store bundle nonce => exact hallows.elim

/-- The new mark is above the old one, and every process that is under way stays ready. -/
theorem inOrder_replace (hp : s.process i = .writing store bundle nonce) (fault : Option Exc)
    (hund : s.Undisturbed (i, .replace fault)) :
    ∃ m' owner', (s.step (i, .replace fault)).InOrder m' owner' ∧ m ≤ m' := by
  have hi := h.process i
  rw [hp] at hi
  obtain ⟨hk, n, hn, hlt⟩ := hi
  rw [step_replace hp]
  cases hfault : fault.or
    (if bundle.sequence.printable then none else some Value.digitsLimit) with
  | some e => exact ⟨m, owner, h.put hk, le_rfl⟩
  | none =>
    obtain ⟨rfl, hprintable⟩ := Option.or_eq_none_iff.mp hfault
    have hprintable : bundle.sequence.printable = true := by simpa using hprintable
    refine ⟨n, some i, ⟨?_, ?_, fun j => ?_⟩, hlt.le⟩
    · rw [hn] at hprintable
      rw [mark_put, hn, mark_replaced s i hprintable]
    · obtain ⟨earlier, hcommitted, hbelow⟩ := h.committed
      refine ⟨s.committed, by rw [← hn]; rfl, ?_⟩
      intro c hc
      rw [hcommitted] at hc
      rcases List.mem_cons.mp hc with rfl | hc
      · exact ⟨m, rfl, hlt⟩
      · obtain ⟨k, hck, hkm⟩ := hbelow c hc
        exact ⟨k, hck, hkm.trans hlt⟩
    · by_cases hj : j = i
      · subst hj
        rw [process_put_self]
        exact ⟨hk, hn, rfl⟩
      · have hallows := hund store bundle nonce hp j hj
        rw [hn] at hallows
        rw [process_put_of_ne hj]
        exact (h.process j).replaced hallows

theorem inOrder_install (hp : s.process i = .committed store bundle nonce) :
    (s.step (i, .install)).InOrder m owner := by
  have hi := h.process i
  rw [hp] at hi
  obtain ⟨hk, hm, -⟩ := hi
  rw [step_install hp]
  cases nonce.hashable with
  | error e => exact h.put hk
  | ok u => exact h.put ⟨m, hm⟩

end

/-- An undisturbed step keeps the order, and the mark does not fall. -/
theorem inOrder_step (e : ι × Move rt) (hint : e.2.IntegerSequences) (hund : s.Undisturbed e) :
    ∃ m' owner', (s.step e).InOrder m' owner' ∧ m ≤ m' := by
  have hsame {t : Host ι rt} (ht : t.InOrder m owner) :
      ∃ m' owner', t.InOrder m' owner' ∧ m ≤ m' := ⟨m, owner, ht, le_rfl⟩
  obtain ⟨i, move⟩ := e
  have hdown : Ready i m owner (.down : Process rt) := trivial
  have hkill : (s.step (i, .kill)).InOrder m owner := h.put hdown
  cases hp : s.process i with
  | down =>
    cases move with
    | start trustedKey expectedIssuer siteId signedFloor floorLinks readFault =>
      rw [step_start hp]
      split
      · exact hsame h
      · next store hstart => exact hsame (inOrder_start h hstart)
    | kill => exact hsame hkill
    | _ => exact hsame (by simpa only [step, hp] using h)
  | idle store =>
    cases move with
    | check envelopeBytes now =>
      rw [step_check hp]
      split
      · exact hsame h
      · next bundle nonce hvet => exact hsame (inOrder_check h hp hint hvet)
    | kill => exact hsame hkill
    | _ => exact hsame (by simpa only [step, hp] using h)
  | checked store bundle nonce =>
    cases move with
    | read fault => exact hsame (inOrder_read h hp fault hund)
    | kill => exact hsame hkill
    | _ => exact hsame (by simpa only [step, hp] using h)
  | writing store bundle nonce =>
    cases move with
    | replace fault => exact inOrder_replace h hp fault hund
    | kill => exact hsame hkill
    | _ => exact hsame (by simpa only [step, hp] using h)
  | committed store bundle nonce =>
    cases move with
    | install => exact hsame (inOrder_install h hp)
    | kill => exact hsame hkill
    | _ => exact hsame (by simpa only [step, hp] using h)

/-- Where all is in order an undisturbed step is safe. -/
theorem safe_step (e : ι × Move rt) (hint : e.2.IntegerSequences) (hund : s.Undisturbed e) :
    s.Safe e := by
  refine ⟨fun v hv => ?_, fun i store bundle nonce he hp => ?_⟩
  · obtain ⟨m', owner', h', hle⟩ := inOrder_step h e hint hund
    obtain rfl : v = .int m := Except.ok.inj (hv.symm.trans h.mark)
    exact ⟨.int m', h'.mark, by simpa using hle⟩
  · have hi := h.process i
    rw [hp] at hi
    obtain ⟨-, hm, howner⟩ := hi
    obtain ⟨earlier, hcommitted, hbelow⟩ := h.committed
    refine ⟨earlier, by rw [hcommitted, howner, hm], ?_⟩
    intro c hc
    obtain ⟨k, hk, hkm⟩ := hbelow c hc
    rw [hm, hk, Value.le_int]
    simpa using hkm

end InOrder

/-! ## Runs -/

omit [DecidableEq ι] in
theorem inOrder_fresh {file : EpochFile} {m : Int}
    (h : (EpochStore.file file).read = .ok (.int m)) : (fresh file : Host ι rt).InOrder m none := by
  refine ⟨h, ⟨[], ?_, by simp⟩, fun _ => trivial⟩
  rw [fresh, h]
  rfl

/-- A mark that cannot be read keeps every process from coming up. -/
structure Unreadable (s : Host ι rt) : Prop where
  mark : ∃ e, s.mark = .error e
  down : ∀ i, s.process i = .down

theorem unreadable_step (h : s.Unreadable) (e : ι × Move rt) : (s.step e).Unreadable := by
  obtain ⟨⟨e', hmark⟩, hdown⟩ := h
  obtain ⟨i, move⟩ := e
  have hkill : (s.step (i, .kill)).Unreadable := by
    refine ⟨⟨e', hmark⟩, ?_⟩
    intro j
    by_cases hj : j = i
    · rw [hj]
      exact process_put_self s i .down
    · exact (process_put_of_ne hj s .down).trans (hdown j)
  cases move with
  | start trustedKey expectedIssuer siteId signedFloor floorLinks readFault =>
    rw [step_start (hdown i)]
    split
    · exact ⟨⟨e', hmark⟩, hdown⟩
    · next store hstart =>
      obtain ⟨_, _, -, -, hread, -⟩ := BundleStore.init_ok.mp hstart
      rw [mark] at hmark
      rw [hmark] at hread
      cases hread
  | kill => exact hkill
  | _ => simpa only [step, hdown i] using ⟨⟨e', hmark⟩, hdown⟩

theorem safe_of_unreadable (h : s.Unreadable) (e : ι × Move rt) : s.Safe e := by
  obtain ⟨⟨e', hmark⟩, hdown⟩ := h
  refine ⟨fun m hm => ?_, fun i store bundle nonce _ hp => ?_⟩
  · rw [hmark] at hm
    cases hm
  · rw [hdown i] at hp
    cases hp

/-- One mark: over every run of undisturbed steps of any number of processes, every step is
safe. -/
theorem safe_of_undisturbed (file : EpochFile) {events : List (ι × Move rt)}
    (h : Run.Along step (fun s e => e.2.IntegerSequences ∧ s.Undisturbed e) (fresh file) events) :
    Run.Along step Safe (fresh file) events := by
  cases hread : (EpochStore.file file).read with
  | error e =>
    have hfresh : (fresh file : Host ι rt).Unreadable := ⟨⟨e, hread⟩, fun _ => rfl⟩
    refine h.imp (fun s e hs _ => ?_) hfresh
    exact ⟨unreadable_step hs e, safe_of_unreadable hs e⟩
  | ok v =>
    obtain ⟨m, rfl⟩ := integerMark_file file v hread
    refine h.imp (I := fun s => ∃ m owner, s.InOrder m owner) ?_ ⟨m, none, inOrder_fresh hread⟩
    intro s e hs hok
    obtain ⟨m, owner, hs⟩ := hs
    obtain ⟨m', owner', hs', -⟩ := inOrder_step hs e hok.1 hok.2
    exact ⟨⟨m', owner', hs'⟩, safe_step hs e hok.1 hok.2⟩

end Host

namespace Sample

/-- A store that was built over an integer mark. -/
def built (floor : WireBundle) (m : Int) : BundleStore standIn :=
  ⟨standIn.publicKey signer.key, "authority-1", "site-1", floor, none, .int m, []⟩

def start : Move standIn :=
  .start (standIn.publicKey signer.key) "authority-1" "site-1" signedFloor none none

/-- A minute past noon. -/
def check (sequence : Int) (nonce : UInt8) : Move standIn :=
  .check (envelope sequence nonce) (clock 60)

theorem step_start {s : Host Bool standIn} {i : Bool} {m : Int} (hp : s.process i = .down)
    (hmark : s.mark = .ok (.int m)) : ∃ floor, s.step (i, start) = s.put i (.idle (built floor m)) := by
  obtain ⟨floor, hinit⟩ := init_ok hmark
  refine ⟨floor, ?_⟩
  rw [start, Host.step_start hp, hinit]
  rfl

theorem vet_built (floor : WireBundle) {m sequence : Int} (nonce : UInt8) (hlt : m < sequence) :
    (built floor m).vet (envelope sequence nonce) (clock 60) =
      .ok ((bundle sequence).toWire, .bytes (List.replicate 16 nonce)) :=
  vet sequence nonce rfl rfl rfl (by decide) (by decide) rfl hlt

theorem step_check {s : Host Bool standIn} {i : Bool} {floor : WireBundle} {m sequence : Int}
    (nonce : UInt8) (hp : s.process i = .idle (built floor m)) (hlt : m < sequence) :
    s.step (i, check sequence nonce) = s.put i
      (.checked (built floor m) (bundle sequence).toWire (.bytes (List.replicate 16 nonce))) := by
  rw [check, Host.step_check hp, vet_built floor nonce hlt]

/-- A site where no policy was ever accepted. -/
def emptyFile : EpochFile := ⟨"epoch", none, []⟩

theorem step_starts : ∃ old new,
    Run.run Host.step (Host.fresh emptyFile) [(false, start), (true, start)] =
      ((Host.fresh emptyFile).put false (.idle (built old noEpoch))).put true
        (.idle (built new noEpoch)) := by
  obtain ⟨old, hold⟩ := step_start (s := Host.fresh emptyFile) (i := false) rfl rfl
  obtain ⟨new, hnew⟩ := step_start (s := (Host.fresh emptyFile).put false
    (.idle (built old noEpoch))) (i := true) rfl rfl
  exact ⟨old, new, by rw [Run.run_cons, Run.run_cons, Run.run_nil, hold, hnew]⟩

/-- Both processes read the mark before either replaces the file. -/
def overlapping : List (Bool × Move standIn) :=
  [(false, start), (true, start)] ++ [(false, check 10 0), (true, check 7 1), (false, .read none),
    (true, .read none), (false, .replace none)]

/-- The new process accepts a bundle. -/
def accepting : List (Bool × Move standIn) :=
  [(false, start), (true, start)] ++ [(true, check 10 0), (true, .read none),
    (true, .replace none), (true, .install)]

/-- The old one is delivered an older bundle after that. -/
def stale : List (Bool × Move standIn) :=
  accepting ++ [(false, check 7 1), (false, .read none)]

section Steps
variable {s : Host Bool standIn} {i : Bool} {store : BundleStore standIn} {sequence m : Int}
  {nonce : Value}

theorem step_read_below (hp : s.process i = .checked store (bundle sequence).toWire nonce)
    (hmark : s.mark = .ok (.int m)) (hlt : m < sequence) :
    s.step (i, .read none) = s.put i (.writing store (bundle sequence).toWire nonce) := by
  have hle : (bundle sequence).toWire.sequence.le (.int m) = .ok false :=
    (Value.le_int sequence m).trans (congrArg Except.ok (decide_eq_false (not_le.mpr hlt)))
  rw [Host.step_read hp, Option.elim_none, hmark]
  dsimp only
  rw [hle]

theorem step_read_above (hp : s.process i = .checked store (bundle sequence).toWire nonce)
    (hmark : s.mark = .ok (.int m)) (hle : sequence ≤ m) :
    s.step (i, .read none) = s.put i (.committed store (bundle sequence).toWire nonce) := by
  have hle : (bundle sequence).toWire.sequence.le (.int m) = .ok true :=
    (Value.le_int sequence m).trans (congrArg Except.ok (decide_eq_true hle))
  rw [Host.step_read hp, Option.elim_none, hmark]
  dsimp only
  rw [hle]

theorem step_replace_printed {n : Int} (hp : s.process i = .writing store (bundle n).toWire nonce)
    (hprintable : (Value.int n).printable = true) :
    s.step (i, .replace none) =
      (s.replaced i (.int n)).put i (.committed store (bundle n).toWire nonce) := by
  have hfault : (none : Option Exc).or
      (if (bundle n).toWire.sequence.printable then none else some Value.digitsLimit) = none :=
    congrArg (fun b : Bool => if b then none else some Value.digitsLimit) hprintable
  rw [Host.step_replace hp, hfault]
  rfl

end Steps

/-- The newer mark is replaced by the older one. -/
theorem run_overlapping : (Run.run Host.step (Host.fresh emptyFile) overlapping).mark =
      .ok (.int 10) ∧
    ((Run.run Host.step (Host.fresh emptyFile) overlapping).step (true, .replace none)).mark =
      .ok (.int 7) := by
  obtain ⟨old, new, hstarts⟩ := step_starts
  rw [overlapping, Run.run_append, hstarts, Run.run_cons, Run.run_cons, Run.run_cons, Run.run_cons,
    Run.run_cons, Run.run_nil]
  rw [step_check 0 rfl (by decide : noEpoch < 10), step_check 1 rfl (by decide : noEpoch < 7),
    step_read_below (i := false) rfl rfl (by decide : noEpoch < 10),
    step_read_below (i := true) rfl rfl (by decide : noEpoch < 7),
    step_replace_printed (n := 10) rfl (by decide +kernel),
    step_replace_printed (n := 7) rfl (by decide +kernel)]
  exact ⟨Host.mark_replaced _ false (by decide +kernel),
    Host.mark_replaced _ true (by decide +kernel)⟩

/-- The old process still holds the sequence it read. -/
theorem run_accepting : ∃ old,
    (Run.run Host.step (Host.fresh emptyFile) accepting).process false =
      .idle (built old noEpoch) ∧
    (Run.run Host.step (Host.fresh emptyFile) accepting).mark = .ok (.int 10) ∧
    (Run.run Host.step (Host.fresh emptyFile) accepting).committed =
      [(some true, .int 10), (none, .int noEpoch)] := by
  obtain ⟨old, new, hstarts⟩ := step_starts
  rw [accepting, Run.run_append, hstarts, Run.run_cons, Run.run_cons, Run.run_cons, Run.run_cons,
    Run.run_nil, step_check 0 rfl (by decide : noEpoch < 10),
    step_read_below rfl rfl (by decide : noEpoch < 10),
    step_replace_printed (n := 10) rfl (by decide +kernel), Host.step_install rfl]
  exact ⟨old, rfl, Host.mark_replaced _ true (by decide +kernel), rfl⟩

/-- The older bundle is about to be installed after the newer one was committed. -/
theorem run_stale : ∃ store nonce,
    (Run.run Host.step (Host.fresh emptyFile) stale).process false =
      .committed store (bundle 7).toWire nonce ∧
    (Run.run Host.step (Host.fresh emptyFile) stale).committed =
      [(some true, .int 10), (none, .int noEpoch)] := by
  obtain ⟨old, hp, hmark, hcommitted⟩ := run_accepting
  rw [stale, Run.run_append]
  generalize Run.run Host.step (Host.fresh emptyFile) accepting = s at hp hmark hcommitted ⊢
  rw [Run.run_cons, Run.run_cons, Run.run_nil, step_check 1 hp (by decide : noEpoch < 7),
    step_read_above (Host.process_put_self s false _) ((Host.mark_put s false _).trans hmark)
      (by decide : (7 : Int) ≤ 10)]
  exact ⟨_, _, Host.process_put_self _ false _,
    (Host.committed_put _ false _).trans ((Host.committed_put s false _).trans hcommitted)⟩

theorem integerSequences_check (n : Int) (nonce : UInt8) : (check n nonce).IntegerSequences :=
  integerSequence_publish lawful_standIn List.length_replicate (publish_bundle n nonce)

theorem undisturbed_accepting : Run.Along Host.step
    (fun s e => e.2.IntegerSequences ∧ s.Undisturbed e) (Host.fresh emptyFile) accepting := by
  obtain ⟨old, new, hstarts⟩ := step_starts
  refine Run.along_append.mpr ⟨⟨⟨trivial, trivial⟩, ⟨trivial, trivial⟩, trivial⟩, ?_⟩
  rw [hstarts]
  refine ⟨⟨integerSequences_check 10 0, trivial⟩, ?_⟩
  rw [step_check 0 rfl (by decide : noEpoch < 10)]
  refine ⟨⟨trivial, fun store b nonce current hp hmark => ?_⟩, ?_⟩
  · rw [Host.process_put_self] at hp
    obtain ⟨-, rfl, -⟩ := Process.checked.inj hp
    obtain rfl : Value.int noEpoch = current := Except.ok.inj hmark
    exact Value.le_int 10 noEpoch
  · rw [step_read_below rfl rfl (by decide : noEpoch < 10)]
    refine ⟨⟨trivial, fun store b nonce hp j hj => ?_⟩, ⟨trivial, trivial⟩, trivial⟩
    obtain rfl : j = false := by simpa using hj
    trivial

end Sample

/-- Two commits that overlap lower the mark, and a process with an old copy of the mark installs
what is below it. -/
theorem mark_falls_and_stale_installs :
    (∀ e ∈ Sample.overlapping ++ [(true, .replace none)], e.2.IntegerSequences) ∧
    ¬Run.Along Host.step Host.Safe (Host.fresh Sample.emptyFile)
      (Sample.overlapping ++ [(true, .replace none)]) ∧
    (∀ e ∈ Sample.stale ++ [(false, .install)], e.2.IntegerSequences) ∧
    ¬Run.Along Host.step Host.Safe (Host.fresh Sample.emptyFile)
      (Sample.stale ++ [(false, .install)]) := by
  refine ⟨?_, fun hsafe => ?_, ?_, fun hsafe => ?_⟩
  · simp only [Sample.overlapping, List.forall_mem_append, List.forall_mem_cons,
      Sample.integerSequences_check]
    simp [Sample.start, Move.IntegerSequences]
  · obtain ⟨hten, hseven⟩ := Sample.run_overlapping
    obtain ⟨m, hm, hle⟩ := (Run.along_append.mp hsafe).2.1.mark_le _ hten
    obtain rfl : m = .int 7 := Except.ok.inj (hm.symm.trans hseven)
    simp at hle
  · simp only [Sample.stale, Sample.accepting, List.forall_mem_append, List.forall_mem_cons,
      Sample.integerSequences_check]
    simp [Sample.start, Move.IntegerSequences]
  · obtain ⟨store, nonce, hp, hcommitted⟩ := Sample.run_stale
    obtain ⟨earlier, hown, -⟩ :=
      (Run.along_append.mp hsafe).2.1.installs_above false store _ nonce rfl hp
    rw [hcommitted] at hown
    cases hown

/-- Two processes of which one accepts a bundle. -/
theorem safe_of_undisturbed_sample :
    Run.Along Host.step Host.Safe (Host.fresh Sample.emptyFile) Sample.accepting :=
  Host.safe_of_undisturbed Sample.emptyFile Sample.undisturbed_accepting

end Pilotfish
