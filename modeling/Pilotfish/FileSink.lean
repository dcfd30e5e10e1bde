import Pilotfish.Base64
import Pilotfish.Effect
import Pilotfish.Python

/-!
# Receipt sinks

A sink takes records and gives them back in order. The one backed by a file writes a base64 line
for each record, so that a line a power cut left unfinished can be told from the others, as long
as nothing is written after it.

Results:
1. `readAll_lines`: what is read are the finished lines, the empty ones left out.
2. `lawful_fileSink`, `lawful_memorySink`: both sinks give back what they were given.
3. `readAll_continued_iff`: after a torn write the log can be continued exactly when nothing is
   left of the torn line, or nothing is appended, or the line lacks its end only, is padded, and
   the same record comes next.
-/

namespace Pilotfish
open Python

/-! ## What a sink is -/

/-- Something receipts are appended to and read back from. -/
structure ReadableSink where
  State : Type
  append : Bytes → Effect Exc State Unit
  readAll : State → Except Exc (List Bytes)

/-- A state holds a list of records if they are what it gives back, and go on to be after an
append, with the record behind them if it returned and without it if it raised. -/
structure ReadableSink.Lawful (sink : ReadableSink) (holds : sink.State → List Bytes → Prop) :
    Prop where
  readAll : ∀ {s log}, holds s log → sink.readAll s = .ok log
  append_ok : ∀ {s s' log r}, holds s log → r ≠ [] → sink.append r s = (.ok (), s') →
    holds s' (log ++ [r])
  append_error : ∀ {s s' log r e}, holds s log → sink.append r s = (.error e, s') → holds s' log

theorem ReadableSink.Lawful.unique {sink : ReadableSink} {holds : sink.State → List Bytes → Prop}
    (lawful : sink.Lawful holds) {s : sink.State} {log log' : List Bytes} (h : holds s log)
    (h' : holds s log') : log = log' :=
  Except.ok.inj ((lawful.readAll h).symm.trans (lawful.readAll h'))

/-- For tests and for the simulator. -/
def memoryReceiptSink : ReadableSink where
  State := List Bytes
  append receiptBytes lines := (.ok (), lines ++ [receiptBytes])
  readAll lines := .ok lines

theorem lawful_memorySink : memoryReceiptSink.Lawful fun lines log => lines = log where
  readAll := by
    rintro lines - rfl
    rfl
  append_ok := by
    rintro lines s' _ r rfl _ h
    cases h
    rfl
  append_error := by
    rintro lines s' _ r e rfl h
    cases h

/-! ## The file -/

/-- The file at the sink's path, if it exists. -/
structure FileReceiptSink where
  contents : Option Bytes

def newline : UInt8 := 10

/-- What is written for a record. -/
def line (receiptBytes : Bytes) : Bytes := Base64.encode receiptBytes ++ [newline]

/-- `binascii.Error` for a line that ends inside a quad. -/
def binasciiError (cs : Bytes) : Exc :=
  let data := (cs.filter fun c => (Base64.index c).isSome).length
  ⟨.user "Error",
    if data % 4 = 1 then "Invalid base64-encoded string: number of data characters (" ++
      String.ofList (decimal data) ++ ") cannot be 1 more than a multiple of 4"
    else "Incorrect padding"⟩

/-- `base64.b64decode(line)`. -/
def b64decode (cs : Bytes) : Except Exc Bytes :=
  (Base64.decode cs).elim (.error (binasciiError cs)) .ok

namespace FileReceiptSink

def append (sink : FileReceiptSink) (receiptBytes : Bytes) : FileReceiptSink :=
  ⟨some (sink.contents.getD [] ++ line receiptBytes)⟩

/-- An append of which only the first bytes reached the file. -/
def tornAppend (sink : FileReceiptSink) (receiptBytes : Bytes) (cut : Nat) : FileReceiptSink :=
  ⟨some (sink.contents.getD [] ++ (line receiptBytes).take cut)⟩

def appendAll (sink : FileReceiptSink) (records : List Bytes) : FileReceiptSink :=
  records.foldl append sink

/-- Every complete line. A torn final line is dropped, not guessed at. -/
def readAll (sink : FileReceiptSink) : Except Exc (List Bytes) :=
  match sink.contents with
  | none => .ok []
  | some raw =>
      let lines := raw.splitOn newline
      -- a last line without a newline was being written when the process died
      let lines := if raw ≠ [] ∧ raw.getLast? ≠ some newline then lines.dropLast else lines
      (lines.filter fun line => line ≠ []).mapM b64decode

/-! ## What is read -/

/-- A file that is not there reads as one that is empty. -/
theorem readAll_getD (sink : FileReceiptSink) :
    sink.readAll = readAll ⟨some (sink.contents.getD [])⟩ := by
  obtain ⟨_ | raw⟩ := sink <;> rfl

theorem splitOn_lines {lines : List Bytes} (h : ∀ l ∈ lines, newline ∉ l) (tail : Bytes) :
    (lines.flatMap (· ++ [newline]) ++ tail).splitOn newline = lines ++ tail.splitOn newline := by
  induction lines with
  | nil => rfl
  | cons l lines ih =>
    rw [List.flatMap_cons, List.append_assoc, List.append_assoc, List.singleton_append,
      List.splitOn_append_cons_self_of_not_mem (h l List.mem_cons_self),
      ih fun l' hl' => h l' (List.mem_cons_of_mem _ hl'), List.cons_append]

/-- Finished lines end in a newline, if there are any. -/
theorem getLast?_lines (lines : List Bytes) : lines.flatMap (· ++ [newline]) = [] ∨
    (lines.flatMap (· ++ [newline])).getLast? = some newline := by
  rcases List.eq_nil_or_concat' lines with rfl | ⟨init, l, rfl⟩
  · exact .inl rfl
  · refine .inr ?_
    rw [List.flatMap_append, List.flatMap_singleton, ← List.append_assoc, List.getLast?_concat]

/-- The finished lines are read, and what follows the last of them is not. -/
theorem readAll_lines {lines : List Bytes} {tail : Bytes} (h : ∀ l ∈ lines, newline ∉ l)
    (htail : newline ∉ tail) :
    readAll ⟨some (lines.flatMap (· ++ [newline]) ++ tail)⟩ =
      (lines.filter fun line => line ≠ []).mapM b64decode := by
  have hsplit := splitOn_lines h tail
  rw [List.splitOn_eq_singleton htail] at hsplit
  rcases List.eq_nil_or_concat' tail with rfl | ⟨init, c, rfl⟩
  · have hended : ¬ (lines.flatMap (· ++ [newline]) ++ [] ≠ [] ∧
        (lines.flatMap (· ++ [newline]) ++ []).getLast? ≠ some newline) := by
      rw [List.append_nil]
      rintro ⟨hne, hlast⟩
      exact (getLast?_lines lines).elim hne hlast
    simp only [readAll, hsplit, if_neg hended, List.filter_append]
    simp
  · have htorn : lines.flatMap (· ++ [newline]) ++ (init ++ [c]) ≠ [] ∧
        (lines.flatMap (· ++ [newline]) ++ (init ++ [c])).getLast? ≠ some newline := by
      rw [← List.append_assoc, List.getLast?_concat]
      refine ⟨by simp, fun hc => htail ?_⟩
      rw [Option.some.inj hc]
      exact List.mem_append_right _ List.mem_cons_self
    simp only [readAll, hsplit, if_pos htorn, List.dropLast_concat]

/-- Records that are not empty are lines that are read back as the records. -/
theorem mapM_encode {records : List Bytes} :
    (records.map Base64.encode).mapM b64decode = .ok records := by
  have hdecode (r : Bytes) : b64decode (Base64.encode r) = .ok (id r) := by
    rw [b64decode, Base64.decode_encode]
    rfl
  rw [mapM_map_ok hdecode, List.map_id]

theorem filter_encode {records : List Bytes} (h : ∀ r ∈ records, r ≠ []) :
    (records.map Base64.encode).filter (fun line => line ≠ []) = records.map Base64.encode := by
  rw [List.filter_eq_self]
  intro l hl
  obtain ⟨r, hr, rfl⟩ := List.mem_map.mp hl
  simpa using Base64.encode_ne_nil (h r hr)

theorem newline_not_mem_encoded (records : List Bytes) :
    ∀ l ∈ records.map Base64.encode, newline ∉ l := by
  intro l hl
  obtain ⟨r, -, rfl⟩ := List.mem_map.mp hl
  exact Base64.newline_not_mem_encode r

theorem appendAll_contents (sink : FileReceiptSink) (records : List Bytes) :
    (sink.appendAll records).contents.getD [] = sink.contents.getD [] ++
      (records.map Base64.encode).flatMap (· ++ [newline]) := by
  induction records generalizing sink with
  | nil => exact (List.append_nil _).symm
  | cons r records ih =>
    show ((sink.append r).appendAll records).contents.getD [] = _
    rw [ih, append, Option.getD_some, List.map_cons, List.flatMap_cons, List.append_assoc]
    rfl

end FileReceiptSink

/-- The sink a site keeps its receipts in. -/
def fileReceiptSink : ReadableSink where
  State := FileReceiptSink
  append receiptBytes sink := (.ok (), sink.append receiptBytes)
  readAll := FileReceiptSink.readAll

/-- A file of finished lines, each of a record that is not empty. -/
structure FileReceiptSink.Holds (sink : FileReceiptSink) (log : List Bytes) : Prop where
  ne_nil : ∀ r ∈ log, r ≠ []
  contents : sink.contents.getD [] = (log.map Base64.encode).flatMap (· ++ [newline])

theorem lawful_fileSink : fileReceiptSink.Lawful FileReceiptSink.Holds where
  readAll := by
    rintro ⟨contents⟩ log ⟨hne, hcontents⟩
    have hread := FileReceiptSink.readAll_lines (FileReceiptSink.newline_not_mem_encoded log)
      (List.not_mem_nil (a := newline))
    rw [List.append_nil, FileReceiptSink.filter_encode hne, FileReceiptSink.mapM_encode] at hread
    show FileReceiptSink.readAll ⟨contents⟩ = _
    rw [FileReceiptSink.readAll_getD, hcontents, hread]
  append_ok := by
    rintro sink s' log r ⟨hne, hcontents⟩ hr happend
    cases happend
    refine ⟨fun x hx => ?_, ?_⟩
    · rcases List.mem_append.mp hx with hx | hx
      · exact hne x hx
      · exact List.mem_singleton.mp hx ▸ hr
    · show sink.contents.getD [] ++ line r = _
      rw [hcontents, List.map_append, List.flatMap_append]
      simp [line]
  append_error := by
    rintro sink s' log r e - happend
    cases happend

/-! ## Continuing after a torn write -/

/-- A new file, records appended to it, one more of which only the first bytes were written, and
records appended after that. -/
def continued (before : List Bytes) (torn : Bytes) (cut : Nat) (after : List Bytes) :
    FileReceiptSink :=
  (((FileReceiptSink.mk none).appendAll before).tornAppend torn cut).appendAll after

/-- One line among others decodes to one record among others. -/
theorem mapM_b64decode_iff {xs zs : List Bytes} {y r : Bytes} :
    (xs.map Base64.encode ++ y :: zs.map Base64.encode).mapM b64decode = .ok (xs ++ r :: zs) ↔
    b64decode y = .ok r := by
  rw [List.mapM_append, List.mapM_cons, FileReceiptSink.mapM_encode, FileReceiptSink.mapM_encode]
  cases b64decode y with
  | error e => exact iff_of_false (fun h => nomatch h) (fun h => nomatch h)
  | ok r' =>
    show (.ok (xs ++ r' :: zs) : Except Exc (List Bytes)) = .ok (xs ++ r :: zs) ↔ _
    simp

theorem b64decode_ok {cs r : Bytes} : b64decode cs = .ok r ↔ Base64.decode cs = some r := by
  rw [b64decode]
  cases Base64.decode cs <;> simp

section Continued
variable {before : List Bytes} {torn : Bytes} {cut : Nat} {after : List Bytes}

theorem continued_contents : (continued before torn cut after).contents.getD [] =
    (before.map Base64.encode).flatMap (· ++ [newline]) ++ ((line torn).take cut ++
      (after.map Base64.encode).flatMap (· ++ [newline])) := by
  rw [continued, FileReceiptSink.appendAll_contents, FileReceiptSink.tornAppend, Option.getD_some,
    FileReceiptSink.appendAll_contents, Option.getD_none, List.nil_append, List.append_assoc]

/-- An append that was finished is not torn. -/
theorem readAll_continued_whole (hbefore : ∀ r ∈ before, r ≠ []) (htorn : torn ≠ [])
    (hafter : ∀ r ∈ after, r ≠ []) (hcut : (line torn).length ≤ cut) :
    (continued before torn cut after).readAll = .ok (before ++ torn :: after) := by
  have hne : ∀ r ∈ before ++ torn :: after, r ≠ [] := by
    simp only [List.mem_append, List.mem_cons]
    rintro r (hr | rfl | hr)
    · exact hbefore r hr
    · exact htorn
    · exact hafter r hr
  refine lawful_fileSink.readAll ⟨hne, ?_⟩
  rw [continued_contents, List.take_of_length_le hcut]
  simp [line]

omit before after in
/-- What is left of a torn line is part of the encoded record. -/
theorem take_line (hcut : cut < (line torn).length) :
    (line torn).take cut = (Base64.encode torn).take cut := by
  rw [line, List.length_append, List.length_singleton] at hcut
  exact List.take_append_of_le_length (Nat.lt_succ_iff.mp hcut)

omit before after in
theorem newline_not_mem_take : newline ∉ (Base64.encode torn).take cut := fun h =>
  Base64.newline_not_mem_encode torn (List.mem_of_mem_take h)

/-- Nothing appended: the torn line is dropped. -/
theorem readAll_torn (hbefore : ∀ r ∈ before, r ≠ []) (hcut : cut < (line torn).length) :
    (continued before torn cut []).readAll = .ok before := by
  rw [FileReceiptSink.readAll_getD, continued_contents, take_line hcut, List.map_nil,
    List.flatMap_nil, List.append_nil,
    FileReceiptSink.readAll_lines (FileReceiptSink.newline_not_mem_encoded before)
      newline_not_mem_take,
    FileReceiptSink.filter_encode hbefore, FileReceiptSink.mapM_encode]

/-- Something appended: the torn line is what the next record is written behind. -/
theorem readAll_continued_torn (hbefore : ∀ r ∈ before, r ≠ []) {next : Bytes} (hnext : next ≠ [])
    (hafter : ∀ r ∈ after, r ≠ []) (hcut : cut < (line torn).length) :
    (continued before torn cut (next :: after)).readAll = .ok (before ++ next :: after) ↔
    Base64.decode ((Base64.encode torn).take cut ++ Base64.encode next) = some next := by
  let joined := (Base64.encode torn).take cut ++ Base64.encode next
  have hlines : ∀ l ∈ before.map Base64.encode ++ joined :: after.map Base64.encode,
      newline ∉ l := by
    simp only [List.mem_append, List.mem_cons]
    rintro l (hl | rfl | hl)
    · exact FileReceiptSink.newline_not_mem_encoded before l hl
    · rw [List.mem_append]
      rintro (h | h)
      · exact newline_not_mem_take h
      · exact Base64.newline_not_mem_encode next h
    · exact FileReceiptSink.newline_not_mem_encoded after l hl
  have hcontents : (continued before torn cut (next :: after)).contents.getD [] =
      (before.map Base64.encode ++ joined :: after.map Base64.encode).flatMap (· ++ [newline]) ++ [] := by
    rw [continued_contents, take_line hcut, List.append_nil, List.flatMap_append, List.map_cons,
      List.flatMap_cons, List.flatMap_cons]
    simp only [joined, List.append_assoc]
  have hjoined : joined ≠ [] := fun h =>
    Base64.encode_ne_nil hnext (List.append_eq_nil_iff.mp h).2
  have hfilter : (before.map Base64.encode ++ joined :: after.map Base64.encode).filter
      (fun line => line ≠ []) = before.map Base64.encode ++ joined :: after.map Base64.encode := by
    rw [List.filter_append, FileReceiptSink.filter_encode hbefore,
      List.filter_cons_of_pos (by simpa using hjoined), FileReceiptSink.filter_encode hafter]
  rw [FileReceiptSink.readAll_getD, hcontents,
    FileReceiptSink.readAll_lines hlines (List.not_mem_nil (a := newline)), hfilter,
    mapM_b64decode_iff, b64decode_ok]

/-- After a torn write the log goes on as it should exactly when nothing of the line was written,
or all of it, or nothing is appended, or only the line's end is missing, the line is padded and
the same record is appended next. -/
theorem readAll_continued_iff (hbefore : ∀ r ∈ before, r ≠ []) (htorn : torn ≠ [])
    (hafter : ∀ r ∈ after, r ≠ []) :
    (continued before torn cut after).readAll =
      .ok (before ++ (if (line torn).length ≤ cut then [torn] else []) ++ after) ↔
    cut = 0 ∨ (line torn).length ≤ cut ∨ after = [] ∨
      (cut + 1 = (line torn).length ∧ torn.length % 3 ≠ 0 ∧ after.head? = some torn) := by
  by_cases hcut : (line torn).length ≤ cut
  · rw [if_pos hcut, readAll_continued_whole hbefore htorn hafter hcut]
    simp [hcut]
  rw [if_neg hcut, List.append_nil]
  have hlt := not_le.mp hcut
  cases after with
  | nil => simp [readAll_torn hbefore hlt]
  | cons next after =>
    rw [readAll_continued_torn hbefore (hafter next List.mem_cons_self)
      (fun r hr => hafter r (List.mem_cons_of_mem _ hr)) hlt]
    have hlength : (line torn).length = (Base64.encode torn).length + 1 := by simp [line]
    -- a next record is written right behind what was left of the torn one
    by_cases hzero : cut = 0
    · subst hzero
      simp [Base64.decode_encode]
    · have hne : (Base64.encode torn).take cut ≠ [] := by
        simpa [hzero] using Base64.encode_ne_nil htorn
      rw [Base64.decode_torn_append hne (List.take_prefix _ _)]
      have hall : (Base64.encode torn).take cut = Base64.encode torn ↔ cut + 1 = (line torn).length := by
        rw [List.take_eq_self_iff, hlength]
        omega
      simp only [hall, hzero, hcut, reduceCtorEq, false_or, List.head?_cons, Option.some.injEq]

end Continued

/-- Two characters of a torn line turn the next record into another. -/
theorem torn_line_corrupts : (continued [] [97, 98, 99] 2 [[100]]).readAll = .ok [[97, 102, 64]] ∧
    (continued [] [97, 98, 99] 2 [[100]]).readAll ≠
      .ok ([] ++ (if (line [97, 98, 99]).length ≤ 2 then [[97, 98, 99]] else []) ++ [[100]]) := by
  have hread : (continued [] [97, 98, 99] 2 [[100]]).readAll = .ok [[97, 102, 64]] := by
    decide +kernel
  refine ⟨hread, ?_⟩
  rw [hread]
  decide

/-- A log that lost the end of a padded line, and the record of that line appended again. -/
theorem readAll_continued_iff_sample : (continued [[1, 2, 3]] [97] 4 [[97], [98]]).readAll =
    .ok ([[1, 2, 3]] ++ (if (line [97]).length ≤ 4 then [[97]] else []) ++ [[97], [98]]) :=
  (readAll_continued_iff (by decide) (by decide) (by decide)).mpr
    (.inr (.inr (.inr ⟨rfl, by decide, rfl⟩)))

end Pilotfish
