import Pilotfish.FileSink

/-!
# A log cut anywhere

A crash leaves the first bytes of the file, however many. The lines that are whole are read as the
records they were written for, and the rest of a line is not read.

Results:
1. `prefix_lines`: the first bytes of some lines are the first lines and a part of the next.
2. `readAll_cut`: what is read are the records whose newline is among the bytes that are left.
-/

namespace Pilotfish
open Python

/-- How many bytes there are up to and with the newline of a record. -/
def lineEnd (records : List Bytes) (i : Nat) : Nat := ((records.take (i + 1)).flatMap line).length

theorem lineEnd_zero (r : Bytes) (records : List Bytes) :
    lineEnd (r :: records) 0 = (line r).length := by
  simp [lineEnd]

theorem lineEnd_succ (r : Bytes) (records : List Bytes) (i : Nat) :
    lineEnd (r :: records) (i + 1) = (line r).length + lineEnd records i := by
  unfold lineEnd
  rw [List.take_succ_cons, List.flatMap_cons, List.length_append]

theorem line_le_lineEnd (r : Bytes) (records : List Bytes) (i : Nat) :
    (line r).length ≤ lineEnd (r :: records) i := by
  cases i with
  | zero => exact (lineEnd_zero r records).ge
  | succ i =>
    rw [lineEnd_succ]
    exact Nat.le_add_right _ _

theorem flatMap_line (records : List Bytes) :
    records.flatMap line = (records.map Base64.encode).flatMap (· ++ [newline]) := by
  rw [List.flatMap_map]
  rfl

/-- A part of a line without its newline has no newline in it. -/
theorem newline_not_mem_part {part r : Bytes} (h : part <+: line r)
    (hshort : part.length < (line r).length) : newline ∉ part := by
  have htake : part = (line r).take part.length := List.prefix_iff_eq_take.mp h
  rw [htake, take_line hshort]
  exact newline_not_mem_take

/-- The first bytes of some lines are the lines that end among them, and a part of the next. -/
theorem prefix_lines {records : List Bytes} {left : Bytes} (h : left <+: records.flatMap line) :
    ∃ whole ≤ records.length, ∃ part, left = (records.take whole).flatMap line ++ part ∧
      newline ∉ part ∧ ∀ i < records.length, i < whole ↔ lineEnd records i ≤ left.length := by
  induction records generalizing left with
  | nil =>
    obtain rfl : left = [] := List.prefix_nil.mp h
    exact ⟨0, le_rfl, [], rfl, List.not_mem_nil, fun i hi => absurd hi (Nat.not_lt_zero i)⟩
  | cons r records ih =>
    rw [List.flatMap_cons] at h
    by_cases hlong : (line r).length ≤ left.length
    · obtain ⟨rest, rfl⟩ : line r <+: left :=
        List.prefix_of_prefix_length_le (List.prefix_append _ _) h hlong
      obtain ⟨whole, hwhole, part, rfl, hpart, hends⟩ :=
        ih ((List.prefix_append_right_inj (line r)).mp h)
      refine ⟨whole + 1, Nat.succ_le_succ hwhole, part, ?_, hpart, ?_⟩
      · rw [List.take_succ_cons, List.flatMap_cons, List.append_assoc]
      · intro i hi
        cases i with
        | zero =>
          rw [lineEnd_zero]
          exact iff_of_true (Nat.succ_pos whole) hlong
        | succ i =>
          rw [lineEnd_succ, List.length_append, Nat.add_le_add_iff_left, Nat.succ_lt_succ_iff]
          exact hends i (Nat.lt_of_succ_lt_succ hi)
    · have hshort := not_le.mp hlong
      have hpart : left <+: line r :=
        List.prefix_of_prefix_length_le h (List.prefix_append _ _) hshort.le
      refine ⟨0, Nat.zero_le _, left, rfl, newline_not_mem_part hpart hshort, ?_⟩
      intro i _
      exact iff_of_false (Nat.not_lt_zero i)
        (not_le.mpr (hshort.trans_le (line_le_lineEnd r records i)))

/-- Whatever is left of a log that was written from its start, the records whose newline is left are
read, and no others. -/
theorem readAll_cut {empty crashed : FileReceiptSink} (hempty : empty.contents.getD [] = [])
    {records : List Bytes} (hrecords : ∀ r ∈ records, r ≠ [])
    (hleft : crashed.contents.getD [] <+: (empty.appendAll records).contents.getD []) :
    ∃ whole ≤ records.length, crashed.readAll = .ok (records.take whole) ∧
      ∀ i < records.length, i < whole ↔ lineEnd records i ≤ (crashed.contents.getD []).length := by
  rw [FileReceiptSink.appendAll_contents, hempty, List.nil_append, ← flatMap_line] at hleft
  obtain ⟨whole, hwhole, part, hcontents, hpart, hends⟩ := prefix_lines hleft
  refine ⟨whole, hwhole, ?_, hends⟩
  have hread := FileReceiptSink.readAll_lines
    (FileReceiptSink.newline_not_mem_encoded (records.take whole)) hpart
  rw [FileReceiptSink.readAll_getD, hcontents, flatMap_line, hread,
    FileReceiptSink.filter_encode fun r hr => hrecords r (List.mem_of_mem_take hr),
    FileReceiptSink.mapM_encode]

/-- Two records, and a crash right before the second newline. -/
theorem readAll_cut_sample : ∃ whole ≤ 2,
    (FileReceiptSink.mk (some [89, 81, 61, 61, 10, 89, 109, 77, 61])).readAll =
      .ok ([[97], [98, 99]].take whole) ∧
    ∀ i < 2, i < whole ↔ lineEnd [[97], [98, 99]] i ≤ 9 := by
  have hfile : ([89, 81, 61, 61, 10, 89, 109, 77, 61] : Bytes) <+:
      ((FileReceiptSink.mk none).appendAll [[97], [98, 99]]).contents.getD [] :=
    ⟨[10], by decide +kernel⟩
  exact @readAll_cut ⟨none⟩ ⟨some _⟩ rfl _ (by decide) hfile

end Pilotfish
