import Pilotfish.Models

/-!
# The durable high-water mark

The highest accepted authority sequence is written down, atomically, before the bundle carrying
it takes effect. A commit is the list of operations it performs, so that what a crash leaves
behind is what a prefix of them leaves.

Results:
1. `commitSteps_file`, `commitSteps_cases`: all a commit can do, of any object and of an integer.
2. `between_commitSteps`: whatever prefix of a commit was performed, the mark reads as the old
   one or as the new and higher one.
3. `read_of_commit_ok`: after a commit that returned the mark is as high as what was committed;
   `commit_ok_iff`: when one without a fault returns.
4. `bare_commit_of_not_moves`, `commit_of_moves`: a commit of any object either replaces the mark
   and returns, or leaves it as it was.
5. `rank_of_commit`: what a commit of a number does to the mark in the order of the numbers.
-/

namespace Pilotfish
open Python

/-- Value meaning "no policy has ever been accepted here". -/
def noEpoch : Int := -1

/-- The file of the mark, and the temporary files beside it. -/
structure EpochFile where
  path : String
  /-- The text of the file, if it exists. -/
  mark : Option (List Char)
  /-- The texts of the temporary files, the one being written first. -/
  temps : List (List Char)

/-- The volatile store and the durable one. -/
inductive EpochStore
  | memory (sequence : Value)
  | file (file : EpochFile)

/-- What the operating system raises during a commit or a read, if anything. -/
structure EpochFaults where
  read : Option Exc := none
  mkstemp : Option Exc := none
  write : Option Exc := none
  replace : Option Exc := none
  unlink : Option Exc := none

/-- One operation on the store. -/
inductive EpochStep
  | assign (sequence : Value)
  | mkstemp
  | write (text : List Char)
  | replace
  | unlink

/-- The recorded mark exists but cannot be read. -/
def epochUnreadable (path : String) (raw : List Char) : Exc :=
  ⟨.user "EpochUnreadable",
    "epoch mark at " ++ path ++ " is not a number: " ++ String.ofList (Value.quoteText raw)⟩

namespace EpochStore

def read : EpochStore → Except Exc Value
  | memory sequence => .ok sequence
  | file f =>
      match f.mark with
      | none => .ok (.int noEpoch)
      | some text =>
          match intOf? (strip text) with
          | some n => .ok (.int n)
          | none => .error (epochUnreadable f.path (strip text))

/-- What one operation does; `replace` takes effect as a whole. -/
def perform : EpochStore → EpochStep → EpochStore
  | memory _, .assign sequence => memory sequence
  | file f, .mkstemp => file { f with temps := [] :: f.temps }
  | file f, .write text => file { f with temps := text :: f.temps.tail }
  | file f, .replace => file { f with mark := f.temps.head?, temps := f.temps.tail }
  | file f, .unlink => file { f with temps := f.temps.tail }
  | store, _ => store

/-- Clean up after an exception and raise it again. -/
def cleanUp (faults : EpochFaults) (e : Exc) (done : List EpochStep) :
    Except Exc Unit × List EpochStep :=
  match faults.unlink with
  | some e' => (.error e', done)
  | none => (.error e, done ++ [.unlink])

/-- What a commit returns or raises, and the operations it performs. -/
def commitSteps (store : EpochStore) (faults : EpochFaults) (sequence : Value) :
    Except Exc Unit × List EpochStep :=
  match store with
  | memory current =>
      match sequence.gt current with
      | .error e => (.error e, [])
      | .ok true => (.ok (), [.assign sequence])
      | .ok false => (.ok (), [.assign current])
  | file f =>
      match faults.read.elim (file f).read .error with
      | .error e => (.error e, [])
      | .ok current =>
          match sequence.le current with
          | .error e => (.error e, [])
          -- committing at or below the mark is a no-op, not an error
          | .ok true => (.ok (), [])
          | .ok false =>
              let text := sequence.text.toList ++ ['\n']
              let unwritten :=
                faults.write.or (if sequence.printable then none else some Value.digitsLimit)
              match faults.mkstemp, unwritten, faults.replace with
              | some e, _, _ => (.error e, [])
              | none, some e, _ => cleanUp faults e [.mkstemp]
              | none, none, some e => cleanUp faults e [.mkstemp, .write text]
              | none, none, none => (.ok (), [.mkstemp, .write text, .replace])

def performAll (store : EpochStore) (steps : List EpochStep) : EpochStore :=
  steps.foldl perform store

def commit (store : EpochStore) (faults : EpochFaults) (sequence : Value) :
    Except Exc Unit × EpochStore :=
  ((store.commitSteps faults sequence).1, store.performAll (store.commitSteps faults sequence).2)

/-! ## What a commit leaves on record -/

variable {store : EpochStore} {faults : EpochFaults} {m n : Int}

/-- What is written for an integer reads as that integer. -/
theorem read_file_mark {f : EpochFile} (hprintable : (Value.int n).printable = true)
    (h : f.mark = some ((Value.int n).text.toList ++ ['\n'])) : (file f).read = .ok (.int n) := by
  have hlimit : n.natAbs < 10 ^ maxDigits := of_decide_eq_true hprintable
  rw [read, h, Value.text_int, String.toList_ofList]
  simp only [intOf?_intText hlimit]

/-- A mark that reads as `m` reads as the higher of `m` and `n`, or still as `m`. -/
def Between (m n : Int) (store : EpochStore) : Prop :=
  ∃ k, store.read = .ok (.int k) ∧ (k = m ∨ k = n ∧ m < n)

theorem Between.refl (h : store.read = .ok (.int m)) : Between m n store := ⟨m, h, .inl rfl⟩

/-- An operation on temporary files only. -/
def Quiet : EpochStep → Prop
  | .mkstemp => True
  | .write _ => True
  | .unlink => True
  | _ => False

theorem read_perform_of_quiet {step : EpochStep} (h : Quiet step) :
    (store.perform step).read = store.read := by
  cases step with
  | assign sequence => exact h.elim
  | replace => exact h.elim
  | _ => cases store <;> rfl

/-- What no operation on temporary files changes, many of them do not change. -/
theorem performAll_of_quiet {α : Type} {f : EpochStore → α}
    (hf : ∀ {store : EpochStore} {step : EpochStep}, Quiet step → f (store.perform step) = f store)
    {steps : List EpochStep} (h : ∀ step ∈ steps, Quiet step) :
    f (store.performAll steps) = f store := by
  induction steps generalizing store with
  | nil => rfl
  | cons step steps ih =>
    rw [performAll, List.foldl_cons]
    exact (ih fun s hs => h s (List.mem_cons_of_mem _ hs)).trans (hf (h step List.mem_cons_self))

theorem read_take_of_quiet {steps : List EpochStep} (h : ∀ step ∈ steps, Quiet step) (k : Nat) :
    (store.performAll (steps.take k)).read = store.read :=
  performAll_of_quiet read_perform_of_quiet fun s hs => h s (List.mem_of_mem_take hs)

theorem cleanUp_quiet {e : Exc} {done : List EpochStep} (h : ∀ step ∈ done, Quiet step) :
    ∀ step ∈ (cleanUp faults e done).2, Quiet step := by
  unfold cleanUp
  cases faults.unlink with
  | some e' => exact h
  | none =>
    intro step hstep
    rcases List.mem_append.mp hstep with hdone | hlast
    · exact h step hdone
    · rw [List.mem_singleton.mp hlast]
      trivial

theorem cleanUp_error (faults : EpochFaults) (e : Exc) (done : List EpochStep) :
    ∃ e', (cleanUp faults e done).1 = .error e' := by
  unfold cleanUp
  cases faults.unlink with
  | some e' => exact ⟨e', rfl⟩
  | none => exact ⟨e, rfl⟩

/-- Nothing fails, and the sequence is above the mark; over a file it can be printed. -/
def Moves (store : EpochStore) (faults : EpochFaults) (sequence : Value) : Prop :=
  match store with
  | memory current => sequence.gt current = .ok true
  | file f => (∃ current, (file f).read = .ok current ∧ sequence.le current = .ok false) ∧
      sequence.printable = true ∧
      faults.read = none ∧ faults.mkstemp = none ∧ faults.write = none ∧ faults.replace = none

/-- What a commit to a file does: it moves the mark, or finds one as high as the sequence and does
nothing, or it fails and has touched temporary files only. -/
theorem commitSteps_file (f : EpochFile) (faults : EpochFaults) (sequence : Value) :
    (file f).Moves faults sequence ∧ (file f).commitSteps faults sequence =
      (.ok (), [.mkstemp, .write (sequence.text.toList ++ ['\n']), .replace]) ∨
    (∃ current, (file f).read = .ok current ∧ sequence.le current = .ok true) ∧
      (file f).commitSteps faults sequence = (.ok (), []) ∨
    (∃ e, ((file f).commitSteps faults sequence).1 = .error e) ∧
      ∀ step ∈ ((file f).commitSteps faults sequence).2, Quiet step := by
  have hnone : ∀ step ∈ ([] : List EpochStep), Quiet step := List.forall_mem_nil _
  have hclean (e : Exc) {done : List EpochStep} (hdone : ∀ step ∈ done, Quiet step) :
      (∃ e', (cleanUp faults e done).1 = .error e') ∧
        ∀ step ∈ (cleanUp faults e done).2, Quiet step :=
    ⟨cleanUp_error faults e done, cleanUp_quiet hdone⟩
  simp only [commitSteps, Moves]
  cases faults.read with
  | some e => exact .inr (.inr ⟨⟨e, rfl⟩, hnone⟩)
  | none =>
    rw [Option.elim_none]
    cases (file f).read with
    | error e => exact .inr (.inr ⟨⟨e, rfl⟩, hnone⟩)
    | ok current =>
      dsimp only
      cases hle : sequence.le current with
      | error e => exact .inr (.inr ⟨⟨e, rfl⟩, hnone⟩)
      | ok superseded =>
        cases superseded with
        | true => exact .inr (.inl ⟨⟨current, rfl, hle⟩, rfl⟩)
        | false =>
          dsimp only
          cases faults.mkstemp with
          | some e => exact .inr (.inr ⟨⟨e, rfl⟩, hnone⟩)
          | none =>
            cases faults.write with
            | some e => exact .inr (.inr (hclean e (by simp [Quiet])))
            | none =>
              rw [Option.none_or]
              cases sequence.printable with
              | false => exact .inr (.inr (hclean _ (by simp [Quiet])))
              | true =>
                cases faults.replace with
                | some e => exact .inr (.inr (hclean e (by simp [Quiet])))
                | none => exact .inl ⟨⟨⟨current, rfl, hle⟩, rfl, rfl, rfl, rfl, rfl⟩, rfl⟩

/-- Operations that leave a mark of `m` alone, without success unless it is as high as `n`. -/
def Keeps (store : EpochStore) (m n : Int) (c : Except Exc Unit × List EpochStep) : Prop :=
  (∀ k, (store.performAll (c.2.take k)).read = .ok (.int m)) ∧ (c.1 = .ok () → n ≤ m)

/-- Operations of which the last one puts the higher mark `n` in place. -/
def Puts (store : EpochStore) (m n : Int) (c : Except Exc Unit × List EpochStep) : Prop :=
  m < n ∧ ∃ before last, c = (.ok (), before ++ [last]) ∧
    (∀ k, (store.performAll (before.take k)).read = .ok (.int m)) ∧
    (store.performAll (before ++ [last])).read = .ok (.int n)

theorem keeps_of_quiet {result : Except Exc Unit} {steps : List EpochStep}
    (h : store.read = .ok (.int m)) (hs : ∀ step ∈ steps, Quiet step)
    (hr : result = .ok () → n ≤ m) : Keeps store m n (result, steps) :=
  ⟨fun k => (read_take_of_quiet hs k).trans h, hr⟩

/-- All a commit of an integer can do where the mark reads as one. -/
theorem commitSteps_cases (faults : EpochFaults) (n : Int) (h : store.read = .ok (.int m)) :
    Keeps store m n (store.commitSteps faults (.int n)) ∨
    Puts store m n (store.commitSteps faults (.int n)) := by
  cases store with
  | memory current =>
    cases h
    by_cases hlt : m < n
    · exact .inr ⟨hlt, [], .assign (.int n), by simp [commitSteps, hlt], fun k => by
        rw [List.take_nil]; rfl, rfl⟩
    · refine .inl ⟨fun k => ?_, fun _ => not_lt.mp hlt⟩
      simp only [commitSteps, Value.gt_int, hlt, decide_false]
      cases k <;> simp [performAll, perform, read]
  | file f =>
    rcases commitSteps_file f faults (.int n) with ⟨hmoves, heq⟩ | ⟨⟨current, hread, hle⟩, heq⟩ |
      ⟨⟨e, hfailed⟩, hquiet⟩
    · obtain ⟨⟨current, hread, hle⟩, hprintable, -⟩ := hmoves
      cases h.symm.trans hread
      rw [Value.le_int, Except.ok.injEq, decide_eq_false_iff_not, not_le] at hle
      -- only `os.replace` moves the mark; what precedes it is in the temporary file
      refine .inr ⟨hle, [.mkstemp, .write ((Value.int n).text.toList ++ ['\n'])], .replace, heq,
        fun k => ?_, read_file_mark hprintable rfl⟩
      rw [read_take_of_quiet (by simp [Quiet]), h]
    · cases h.symm.trans hread
      rw [Value.le_int, Except.ok.injEq, decide_eq_true_eq] at hle
      rw [heq]
      exact .inl (keeps_of_quiet h (by simp) fun _ => hle)
    · refine .inl (keeps_of_quiet h hquiet ?_)
      intro hok
      cases hfailed.symm.trans hok

/-- Whatever prefix of a commit was performed, the mark reads as the old one or as the new and
higher one. -/
theorem between_commitSteps (faults : EpochFaults) (n : Int) (h : store.read = .ok (.int m))
    (k : Nat) : Between m n (store.performAll ((store.commitSteps faults (.int n)).2.take k)) := by
  rcases commitSteps_cases faults n h with ⟨hsame, -⟩ | ⟨hlt, before, last, heq, hbefore, hlast⟩
  · exact ⟨m, hsame k, .inl rfl⟩
  · rw [heq]
    by_cases hk : k ≤ before.length
    · rw [List.take_append_of_le_length hk]
      exact ⟨m, hbefore k, .inl rfl⟩
    · rw [List.take_of_length_le (by simp; omega)]
      exact ⟨n, hlast, .inr ⟨rfl, hlt⟩⟩

/-- A commit, whether it returned or raised. -/
theorem between_commit (faults : EpochFaults) (n : Int) (h : store.read = .ok (.int m)) :
    Between m n (store.commit faults (.int n)).2 := by
  have htake := between_commitSteps faults n h (store.commitSteps faults (.int n)).2.length
  rwa [List.take_length] at htake

/-- A commit that returned has the higher of the two on record. -/
theorem read_of_commit_ok (h : store.read = .ok (.int m))
    (hok : (store.commit faults (.int n)).1 = .ok ()) :
    ∃ k, (store.commit faults (.int n)).2.read = .ok (.int k) ∧ n ≤ k := by
  rcases commitSteps_cases faults n h with ⟨hsame, hle⟩ | ⟨-, before, last, heq, -, hlast⟩
  · have hread := hsame (store.commitSteps faults (.int n)).2.length
    rw [List.take_length] at hread
    exact ⟨m, hread, hle hok⟩
  · exact ⟨n, by rw [commit, heq]; exact hlast, le_rfl⟩

/-- Kept in memory. -/
def Volatile : EpochStore → Prop
  | memory _ => True
  | file _ => False

theorem volatile_perform (store : EpochStore) (step : EpochStep) :
    (store.perform step).Volatile ↔ store.Volatile := by
  cases store <;> cases step <;> exact Iff.rfl

/-- A commit does not move the mark to another place. -/
theorem volatile_commit (store : EpochStore) (faults : EpochFaults) (sequence : Value) :
    (store.commit faults sequence).2.Volatile ↔ store.Volatile := by
  have hall (steps : List EpochStep) (store : EpochStore) :
      (store.performAll steps).Volatile ↔ store.Volatile := by
    induction steps generalizing store with
    | nil => exact Iff.rfl
    | cons step steps ih => exact (ih _).trans (volatile_perform store step)
  exact hall _ store

/-- A mark of a number can be kept: in memory, as a line that can be printed, or because the store
has one as high. -/
def Keepable (store : EpochStore) (n : Int) : Prop :=
  store.Volatile ∨ (Value.int n).printable = true ∨ ∃ m, store.read = .ok (.int m) ∧ n ≤ m

/-- Without a fault a commit of an integer returns, where the mark reads as one, exactly when its
mark can be kept. -/
theorem commit_ok_iff (h : store.read = .ok (.int m)) :
    (store.commit {} (.int n)).1 = .ok () ↔ store.Keepable n := by
  cases store with
  | memory current =>
    cases h
    refine iff_of_true ?_ (.inl trivial)
    by_cases hlt : m < n <;> simp [commit, commitSteps, hlt]
  | file f =>
    by_cases hle : n ≤ m
    · refine iff_of_true ?_ (.inr (.inr ⟨m, h, hle⟩))
      simp [commit, commitSteps, h, hle]
    · simp only [commit, commitSteps, h, Option.elim_none, Value.le_int, hle, decide_false,
        Option.none_or, Keepable, Volatile, Except.ok.injEq, Value.int.injEq, exists_eq_left',
        or_false, false_or]
      cases (Value.int n).printable with
      | true => exact iff_of_true rfl rfl
      | false => exact iff_of_false (fun hok => nomatch hok) Bool.false_ne_true

theorem commit_ok (hread : store.read = .ok (.int m)) (h : store.Keepable n) :
    (store.commit {} (.int n)).1 = .ok () := (commit_ok_iff hread).mpr h

/-! ## When a commit moves the mark -/

/-- The store without its temporary files. -/
def bare : EpochStore → EpochStore
  | memory sequence => memory sequence
  | file f => file { f with temps := [] }

/-- The store with a new mark. -/
def marked (store : EpochStore) (sequence : Value) : EpochStore :=
  match store with
  | memory _ => memory sequence
  | file f => file { f with mark := some (sequence.text.toList ++ ['\n']), temps := [] }

theorem bare_perform_of_quiet {step : EpochStep} (h : Quiet step) :
    (store.perform step).bare = store.bare := by
  cases step with
  | assign sequence => exact h.elim
  | replace => exact h.elim
  | _ => cases store <;> rfl

/-- A commit that does not move the mark leaves it as it was. -/
theorem bare_commit_of_not_moves {sequence : Value} (h : ¬store.Moves faults sequence) :
    (store.commit faults sequence).2.bare = store.bare := by
  cases store with
  | memory current =>
    rw [Moves] at h
    cases hgt : sequence.gt current with
    | error e => simp [commit, commitSteps, hgt, performAll]
    | ok b =>
      cases b with
      | false => simp [commit, commitSteps, hgt, performAll, perform]
      | true => exact absurd hgt h
  | file f =>
    refine performAll_of_quiet bare_perform_of_quiet ?_
    rcases commitSteps_file f faults sequence with ⟨hmoves, -⟩ | ⟨-, heq⟩ | ⟨-, hquiet⟩
    · exact absurd hmoves h
    · rw [heq]
      exact List.forall_mem_nil _
    · exact hquiet

/-- One that moves it returns. -/
theorem commit_of_moves {sequence : Value} (h : store.Moves faults sequence) :
    (store.commit faults sequence).1 = .ok () ∧
    (store.commit faults sequence).2.bare = store.marked sequence := by
  cases store with
  | memory current =>
    rw [Moves] at h
    simp [commit, commitSteps, h, performAll, perform, bare, marked]
  | file f =>
    obtain ⟨⟨current, hread, hle⟩, hprintable, hfault, hmkstemp, hwrite, hreplace⟩ := h
    simp [commit, commitSteps, hfault, hread, hle, hprintable, hmkstemp, hwrite, hreplace, performAll,
      perform, bare, marked]

/-- Over a file nothing but the mark is new. -/
theorem commit_file_of_moves {f : EpochFile} {sequence : Value}
    (h : (file f).Moves faults sequence) : (file f).commit faults sequence =
      (.ok (), file { f with mark := some (sequence.text.toList ++ ['\n']) }) := by
  obtain ⟨⟨current, hread, hle⟩, hprintable, hfault, hmkstemp, hwrite, hreplace⟩ := h
  simp [commit, commitSteps, hfault, hread, hle, hprintable, hmkstemp, hwrite, hreplace, performAll,
    perform]

/-- The new mark is not the old one: a number is not above itself, and a line that reads as the
old mark holds it. -/
theorem marked_ne_bare {sequence : Value} {x : Double} (hnumber : sequence.number = some x)
    (h : store.Moves faults sequence) : store.marked sequence ≠ store.bare := by
  intro hsame
  cases store with
  | memory current =>
    obtain rfl : sequence = current := memory.inj hsame
    rw [Moves, Value.gt, Value.lt_of_number hnumber hnumber] at h
    exact Double.lt_irrefl x (Except.ok.inj h)
  | file f =>
    obtain ⟨⟨current, hread, hle⟩, -⟩ := h
    have hmark : some (sequence.text.toList ++ ['\n']) = f.mark :=
      congrArg EpochFile.mark (file.inj hsame)
    simp only [read, ← hmark] at hread
    cases hparse : intOf? (strip (sequence.text.toList ++ ['\n'])) with
    | none => simp [hparse] at hread
    | some n =>
      simp only [hparse, Except.ok.injEq] at hread
      rw [Value.parseInt_text hnumber (parseInt_of_intOf? hparse), ← hread, Value.le_int] at hle
      simp at hle

/-! ## What temporary files are left does not matter -/

section Bare
variable {store' : EpochStore} (h : store.bare = store'.bare)
include h

/-- Two stores that differ in temporary files at most are both in memory, with one sequence, or both
files, with one path and mark. -/
theorem bare_cases : (∃ current, store = memory current ∧ store' = memory current) ∨
    ∃ f f', store = file f ∧ store' = file f' ∧ f.path = f'.path ∧ f.mark = f'.mark := by
  cases store with
  | memory current =>
    cases store' with
    | memory current' => exact .inl ⟨current, rfl, by rw [memory.inj h]⟩
    | file f' => cases h
  | file f =>
    cases store' with
    | memory current' => cases h
    | file f' =>
      obtain ⟨hpath, hmark, -⟩ := EpochFile.mk.inj (file.inj h)
      exact .inr ⟨f, f', rfl, rfl, hpath, hmark⟩

theorem read_of_bare : store.read = store'.read := by
  rcases bare_cases h with ⟨current, rfl, rfl⟩ | ⟨f, f', rfl, rfl, hpath, hmark⟩
  · rfl
  · rw [read, read, hpath, hmark]

theorem commitSteps_of_bare (sequence : Value) :
    store.commitSteps faults sequence = store'.commitSteps faults sequence := by
  have hread := read_of_bare h
  rcases bare_cases h with ⟨current, rfl, rfl⟩ | ⟨f, f', rfl, rfl, -, -⟩
  · rfl
  · rw [commitSteps, commitSteps, hread]

theorem moves_of_bare {sequence : Value} (hm : store.Moves faults sequence) :
    store'.Moves faults sequence ∧ store.marked sequence = store'.marked sequence := by
  have hread := read_of_bare h
  rcases bare_cases h with ⟨current, rfl, rfl⟩ | ⟨f, f', rfl, rfl, hpath, -⟩
  · exact ⟨hm, rfl⟩
  · refine ⟨?_, by rw [marked, marked, hpath]⟩
    rw [Moves, ← hread]
    exact hm

theorem commit_of_bare (faults : EpochFaults) (sequence : Value) :
    (store.commit faults sequence).1 = (store'.commit faults sequence).1 ∧
    (store.commit faults sequence).2.bare = (store'.commit faults sequence).2.bare := by
  refine ⟨by rw [commit, commit, commitSteps_of_bare h], ?_⟩
  by_cases hm : store.Moves faults sequence
  · obtain ⟨hm', hmarked⟩ := moves_of_bare h hm
    rw [(commit_of_moves hm).2, (commit_of_moves hm').2, hmarked]
  · have hm' : ¬store'.Moves faults sequence := fun hm' => hm (moves_of_bare h.symm hm').1
    rw [bare_commit_of_not_moves hm, bare_commit_of_not_moves hm', h]

end Bare

/-! ## The mark in the order of the numbers -/

/-- No commit goes through where the mark cannot be read. -/
theorem commit_of_unreadable {e : Exc} (h : store.read = .error e) (faults : EpochFaults)
    (sequence : Value) :
    (∃ e', (store.commit faults sequence).1 = .error e') ∧
    (store.commit faults sequence).2 = store := by
  cases store with
  | memory current => cases h
  | file f => cases hfault : faults.read <;> simp [commit, commitSteps, performAll, h, hfault]

section Rank
variable {v sequence : Value} {x : Double} {m : WithBot (WithTop ℚ)} (hread : store.read = .ok v)
  (hm : v.rank = some m) (hnumber : sequence.number = some x)
include hread hm hnumber

/-- A commit that returned and did not move the mark found it as high as the sequence. -/
theorem rank_of_not_moves (hnan : store.Volatile → sequence ≠ .float .nan)
    (hmoves : ¬store.Moves faults sequence) (hok : (store.commit faults sequence).1 = .ok ()) :
    ∃ n, sequence.rank = some n ∧ n ≤ m := by
  cases store with
  | memory current =>
    cases hread
    obtain ⟨n, hn⟩ := Value.rank_of_number hnumber (hnan trivial)
    rw [Moves, Value.gt_of_rank hn hm, Except.ok.injEq, decide_eq_true_eq, not_lt] at hmoves
    exact ⟨n, hn, hmoves⟩
  | file f =>
    rcases commitSteps_file f faults sequence with ⟨hfound, -⟩ | ⟨⟨current, hcurrent, hle⟩, -⟩ |
      ⟨⟨e, hfailed⟩, -⟩
    · exact absurd hfound hmoves
    · obtain rfl : v = current := Except.ok.inj (hread.symm.trans hcurrent)
      exact Value.rank_of_le hle hm
    · cases hfailed.symm.trans hok

/-- A new mark that can be read is the sequence, and above the old one. -/
theorem rank_of_moves (hmoves : store.Moves faults sequence) {v' : Value}
    (hread' : (store.marked sequence).read = .ok v') :
    ∃ n, v'.rank = some n ∧ sequence.rank = some n ∧ m < n := by
  cases store with
  | memory current =>
    cases hread
    cases hread'
    rw [Moves] at hmoves
    have hnan : sequence ≠ .float .nan := by
      rintro rfl
      obtain ⟨y, hy, -⟩ := Value.number_of_rank hm
      rw [Value.gt, Value.lt_of_number hy hnumber] at hmoves
      cases hnumber
      cases y <;> cases hmoves
    obtain ⟨n, hn⟩ := Value.rank_of_number hnumber hnan
    rw [Value.gt_of_rank hn hm, Except.ok.injEq, decide_eq_true_eq] at hmoves
    exact ⟨n, hn, hn, hmoves⟩
  | file f =>
    obtain ⟨⟨current, hcurrent, hle⟩, -⟩ := hmoves
    obtain rfl : v = current := Except.ok.inj (hread.symm.trans hcurrent)
    simp only [marked, read] at hread'
    cases hparse : intOf? (strip (sequence.text.toList ++ ['\n'])) with
    | none => simp [hparse] at hread'
    | some k =>
      obtain rfl : sequence = .int k := Value.parseInt_text hnumber (parseInt_of_intOf? hparse)
      simp only [hparse, Except.ok.injEq] at hread'
      obtain ⟨n, hn⟩ := Value.rank_int k
      rw [Value.le_of_rank hn hm, Except.ok.injEq, decide_eq_false_iff_not, not_le] at hle
      exact ⟨n, hread' ▸ hn, hn, hle⟩

/-- Where a commit of a number leaves a mark that can be read, it is as high as the old one, and
as the number if the commit returned. -/
theorem rank_of_commit (hnan : store.Volatile → sequence ≠ .float .nan)
    {v' : Value} (hread' : (store.commit faults sequence).2.read = .ok v') :
    ∃ m', v'.rank = some m' ∧ m ≤ m' ∧
      ((store.commit faults sequence).1 = .ok () → ∃ n, sequence.rank = some n ∧ n ≤ m') := by
  by_cases hmoves : store.Moves faults sequence
  · have hbare : (store.marked sequence).bare = store.marked sequence := by cases store <;> rfl
    rw [read_of_bare ((commit_of_moves hmoves).2.trans hbare.symm)] at hread'
    obtain ⟨n, hn', hn, hlt⟩ := rank_of_moves hread hm hnumber hmoves hread'
    exact ⟨n, hn', hlt.le, fun _ => ⟨n, hn, le_rfl⟩⟩
  · rw [read_of_bare (bare_commit_of_not_moves hmoves), hread, Except.ok.injEq] at hread'
    exact ⟨m, hread' ▸ hm, le_rfl, rank_of_not_moves hread hm hnumber hnan hmoves⟩

end Rank

end EpochStore

end Pilotfish
