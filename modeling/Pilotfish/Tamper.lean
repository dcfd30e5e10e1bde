import Pilotfish.Restarts

/-!
# Altering a log

What can be done to a log that is accepted, such that it is accepted again.

Results:
1. `verifyChain_subset`: of the receipts of a log only its prefixes are accepted.
2. `body_eq_of_head`: two logs with one head hold the same receipts.
3. `verifyChain_tamper_evident`: both of these.
-/

namespace Pilotfish
open Python

section
variable {rt : Runtime} {S B : Type} [OnWire S] [OnWire B] {log log' : List (Receipt S B)}

omit [OnWire S] [OnWire B] in
/-- A receipt bears one number. -/
theorem Follows.number {p q : String} {n m : Int} {r : Receipt S B} (h : Follows p n r)
    (h' : Follows q m r) : n = m := Value.eq_int_unique h.1 h'.1

/-- Receipts with one body bear one number and one link. -/
theorem Follows.of_body {p q : String} {n m : Int} {r r' : Receipt S B} (h : Follows p n r)
    (h' : Follows q m r') (hbody : r.body rt = r'.body rt) : p = q ∧ n = m := by
  simp only [Receipt.body, Value.list.injEq, List.cons.injEq] at hbody
  obtain ⟨-, hseq, hprev, -⟩ := hbody
  have hnumber := h.1
  rw [hseq] at hnumber
  rw [h.2, h'.2, Value.str.injEq] at hprev
  exact ⟨hprev, Value.eq_int_unique hnumber h'.1⟩

/-- Receipts taken from an accepted log, in any order and any number, are accepted exactly when
they are a prefix of it. -/
theorem verifyChain_subset (h : verifyChain rt log = .ok ()) (hsub : log' ⊆ log) :
    verifyChain rt log' = .ok () ↔ log' <+: log := by
  rw [verifyChain_ok] at h ⊢
  obtain ⟨hlinked, hencodes⟩ := h
  constructor
  · exact fun h' =>
      HashChain.prefix_of_subset (fun _ _ _ _ _ hr hr' => hr.number hr') hlinked h'.1 hsub
  · rintro ⟨rest, rfl⟩
    exact ⟨(HashChain.linked_append.mp hlinked).1, fun r hr => hencodes r (hsub hr)⟩

/-- Accepted logs that end in one hash are alike, receipt by receipt. -/
theorem body_eq_of_head (h : verifyChain rt log = .ok ()) (h' : verifyChain rt log' = .ok ())
    (free : rt.CollisionFree ((log ++ log').map (Receipt.body rt)))
    (hhead : log.getLast?.map (Receipt.hash rt) = log'.getLast?.map (Receipt.hash rt)) :
    log.map (Receipt.body rt) = log'.map (Receipt.body rt) := by
  have injective : ∀ r ∈ log, ∀ r' ∈ log', r.hash rt = r'.hash rt → r.body rt = r'.body rt :=
    fun r hr r' hr' heq => free.digest_injective
      (List.mem_map_of_mem (List.mem_append_left log' hr))
      (List.mem_map_of_mem (List.mem_append_right log hr')) heq
  obtain ⟨h, -⟩ := verifyChain_ok.mp h
  obtain ⟨h', -⟩ := verifyChain_ok.mp h'
  cases log using List.reverseRecOn with
  | nil =>
    cases log' using List.reverseRecOn with
    | nil => rfl
    | append_singleton log' r' => simp at hhead
  | append_singleton log r =>
    cases log' using List.reverseRecOn with
    | nil => simp at hhead
    | append_singleton log' r' =>
      simp only [List.getLast?_concat, Option.map_some, Option.some.injEq] at hhead
      -- the last receipts have one body, so they bear one number
      obtain ⟨-, hlast, -⟩ := HashChain.linked_append.mp h
      obtain ⟨-, hlast', -⟩ := HashChain.linked_append.mp h'
      obtain ⟨-, hnumber⟩ := hlast.of_body hlast'
        (injective r (by simp) r' (by simp) hhead)
      have hlen : (log ++ [r]).length = (log' ++ [r']).length := by
        simp only [List.length_append, List.length_singleton]
        omega
      refine HashChain.map_eq_of_last (fun _ _ _ _ _ _ hr hr' hbody => (hr.of_body hr' hbody).1)
        injective h h' hlen ?_
      rw [HashChain.last_append_singleton, HashChain.last_append_singleton, hhead]

/-- No alteration of an accepted log goes unnoticed, other than cutting off its end. -/
theorem verifyChain_tamper_evident (h : verifyChain rt log = .ok ()) :
    (∀ log' ⊆ log, verifyChain rt log' = .ok () ↔ log' <+: log) ∧
    ∀ log', verifyChain rt log' = .ok () →
      rt.CollisionFree ((log ++ log').map (Receipt.body rt)) →
      log.getLast?.map (Receipt.hash rt) = log'.getLast?.map (Receipt.hash rt) →
      log.map (Receipt.body rt) = log'.map (Receipt.body rt) :=
  ⟨fun _ => verifyChain_subset h, fun _ => body_eq_of_head h⟩

end

namespace Sample

def firstReceipt : Receipt :=
  (ReceiptChain.new "site-1" siteKey : ReceiptChain standIn).receipt (.int 1) (entry 0 (clock 60))

def secondReceipt : Receipt :=
  ((ReceiptChain.new "site-1" siteKey : ReceiptChain standIn).advance firstReceipt).receipt (.int 2)
    (entry 60 (clock 60))

theorem verifyChain_receipts : verifyChain standIn [firstReceipt, secondReceipt] = .ok () :=
  verifyChain_ok.mpr ⟨⟨⟨rfl, rfl⟩, ⟨rfl, rfl⟩, trivial⟩, by
    intro r hr
    rcases List.mem_cons.mp hr with rfl | hr
    · exact Receipt.encodes_of_plain (ReceiptChain.plain_receipt rfl ⟨"", rfl⟩)
    · rw [List.mem_singleton.mp hr]
      exact Receipt.encodes_of_plain (ReceiptChain.plain_receipt rfl ⟨"", rfl⟩)⟩

end Sample

/-- Of a log of two receipts the second alone is not accepted, nor are the two swapped, nor is
the first twice; and a log that ends in the first holds what that was written with. -/
theorem verifyChain_tamper_evident_sample :
    verifyChain standIn [Sample.secondReceipt] ≠ .ok () ∧
    verifyChain standIn [Sample.secondReceipt, Sample.firstReceipt] ≠ .ok () ∧
    verifyChain standIn [Sample.firstReceipt, Sample.firstReceipt] ≠ .ok () ∧
    [Sample.firstReceipt].map (Receipt.body standIn) =
      [Sample.firstReceipt].map (Receipt.body standIn) := by
  have hne : Sample.secondReceipt ≠ Sample.firstReceipt := by
    intro h
    have hseq : Value.int 2 = Value.int 1 := congrArg Receipt.seq h
    cases hseq
  obtain ⟨hsub, -⟩ := verifyChain_tamper_evident Sample.verifyChain_receipts
  have hprefix : verifyChain standIn [Sample.firstReceipt] = .ok () :=
    (hsub _ (by simp)).mpr (by simp)
  obtain ⟨-, hhead⟩ := verifyChain_tamper_evident hprefix
  have hfree : standIn.CollisionFree
      (([Sample.firstReceipt] ++ [Sample.firstReceipt]).map (Receipt.body standIn)) := by
    simp [Runtime.CollisionFree]
  refine ⟨?_, ?_, ?_, hhead _ hprefix hfree rfl⟩
  · rw [Ne, hsub _ (by simp), List.cons_prefix_cons]
    exact fun h => hne h.1
  · rw [Ne, hsub _ (by simp), List.cons_prefix_cons]
    exact fun h => hne h.1
  · rw [Ne, hsub _ (by simp), List.cons_prefix_cons, List.cons_prefix_cons]
    exact fun h => hne h.2.1.symm

end Pilotfish
