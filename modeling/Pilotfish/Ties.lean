import Mathlib.Data.List.MinMax
import Mathlib.Data.List.Sort

/-!
# Sorting and choosing by a key

A stable sort, and the choice of a largest element, both break ties by position. What a
permutation can change is therefore what elements of equal keys differ in.

Results:
1. `map_insertionSort_perm`: what is read off the sorted list does not change if elements of
   equal keys read alike.
   `map_insertionSort_congr`: nor if the elements are replaced by others that read alike.
2. `insertionSort_tie`: two elements of equal keys stay in the order they came in.
   `filter_insertionSort`: as do all the elements of one key.
   `insertionSort_sublist`: sorting more elements leaves the order of the others.
3. `argmax_cons_of_le`: the first of the largest is chosen.
   `argmax_filter`: as it is when others are taken away.
-/

namespace Ties
open List

variable {α β κ : Type*} [LinearOrder κ]

/-- Sorted lists that are permutations of each other have the same keys at every place. -/
theorem map_key_insertionSort_perm {l l' : List α} (key : α → κ) (h : l.Perm l') :
    (l.insertionSort fun a b => key a ≤ key b).map key =
      (l'.insertionSort fun a b => key a ≤ key b).map key := by
  have hperm : (l.insertionSort fun a b => key a ≤ key b).Perm
      (l'.insertionSort fun a b => key a ≤ key b) :=
    (perm_insertionSort _ l).trans (h.trans (perm_insertionSort _ l').symm)
  have hsorted (l : List α) : ((l.insertionSort fun a b => key a ≤ key b).map key).Pairwise (· ≤ ·) := by
    have htotal : Std.Total fun a b : α => key a ≤ key b := ⟨fun a b => le_total _ _⟩
    have htrans : IsTrans α fun a b => key a ≤ key b := ⟨fun _ _ _ => le_trans⟩
    exact pairwise_map.mpr (pairwise_insertionSort _ l)
  exact (hperm.map key).eq_of_pairwise' (hsorted l) (hsorted l')

/-- What is read off the sorted list depends on the keys and on what is read of each element. -/
theorem map_insertionSort_congr {l l' : List α} (key : α → κ) (g : α → β)
    (h : l.map (fun a => (key a, g a)) = l'.map fun a => (key a, g a)) :
    (l.insertionSort fun a b => key a ≤ key b).map g =
      (l'.insertionSort fun a b => key a ≤ key b).map g := by
  have hsort (l : List α) : (l.insertionSort fun a b => key a ≤ key b).map g =
      ((l.map fun a => (key a, g a)).insertionSort fun p q => p.1 ≤ q.1).map Prod.snd := by
    rw [← map_insertionSort (fun a b => key a ≤ key b) _ (fun a => (key a, g a)) l
      fun _ _ _ _ => Iff.rfl, map_map]
    rfl
  rw [hsort, hsort, h]

theorem map_insertionSort_perm {l l' : List α} (key : α → κ) (g : α → β) (h : l.Perm l')
    (hg : ∀ a ∈ l, ∀ b ∈ l, key a = key b → g a = g b) :
    (l.insertionSort fun a b => key a ≤ key b).map g =
      (l'.insertionSort fun a b => key a ≤ key b).map g := by
  have hmem : ∀ a ∈ l.insertionSort fun a b => key a ≤ key b, a ∈ l := fun a ha =>
    (perm_insertionSort _ l).mem_iff.mp ha
  have hmem' : ∀ a ∈ l'.insertionSort fun a b => key a ≤ key b, a ∈ l := fun a ha =>
    h.mem_iff.mpr ((perm_insertionSort _ l').mem_iff.mp ha)
  have hkeys := map_key_insertionSort_perm key h
  generalize l.insertionSort (fun a b => key a ≤ key b) = s at hkeys hmem
  generalize l'.insertionSort (fun a b => key a ≤ key b) = s' at hkeys hmem'
  -- along both sorted lists at once, whose keys agree place by place
  induction s generalizing s' with
  | nil =>
    cases s' with
    | nil => rfl
    | cons b s' => cases hkeys
  | cons a s ih =>
    cases s' with
    | nil => cases hkeys
    | cons b s' =>
      obtain ⟨hkey, hkeys⟩ := cons.inj hkeys
      rw [map_cons, map_cons,
        hg a (hmem a mem_cons_self) b (hmem' b mem_cons_self) hkey,
        ih (fun c hc => hmem c (mem_cons_of_mem _ hc)) s' hkeys
          (fun c hc => hmem' c (mem_cons_of_mem _ hc))]

/-- Inserting two elements of one key, in either order, differs in these two places only. -/
theorem orderedInsert_tie {a b : α} (key : α → κ) (h : key a = key b) (l : List α) :
    ∃ s t, (l.orderedInsert (fun a b => key a ≤ key b) b).orderedInsert (fun a b => key a ≤ key b) a =
        s ++ a :: b :: t ∧
      (l.orderedInsert (fun a b => key a ≤ key b) a).orderedInsert (fun a b => key a ≤ key b) b =
        s ++ b :: a :: t := by
  induction l with
  | nil => exact ⟨[], [], by simp [h], by simp [h]⟩
  | cons c l ih =>
    by_cases hc : key a ≤ key c
    · have hc' : key b ≤ key c := h ▸ hc
      exact ⟨[], c :: l, by simp [h, hc'], by simp [h, hc']⟩
    · have hc' : ¬ key b ≤ key c := h ▸ hc
      obtain ⟨s, t, hab, hba⟩ := ih
      exact ⟨c :: s, t, by simp [hc, hc', hab], by simp [hc, hc', hba]⟩

theorem insertionSort_tie {a b : α} (key : α → κ) (h : key a = key b) (l : List α) :
    ∃ s t, ((a :: b :: l).insertionSort fun a b => key a ≤ key b) = s ++ a :: b :: t ∧
      ((b :: a :: l).insertionSort fun a b => key a ≤ key b) = s ++ b :: a :: t :=
  orderedInsert_tie key h _

/-- The elements of one key stay in the order they came in. -/
theorem filter_insertionSort (key : α → κ) (k : κ) (l : List α) :
    (l.insertionSort fun a b => key a ≤ key b).filter (key · = k) = l.filter (key · = k) := by
  have htotal : Std.Total fun a b : α => key a ≤ key b := ⟨fun a b => le_total _ _⟩
  have htrans : IsTrans α fun a b => key a ≤ key b := ⟨fun _ _ _ => le_trans⟩
  have hsorted : (l.filter (key · = k)).Pairwise fun a b => key a ≤ key b := by
    refine pairwise_of_forall_mem_list ?_
    intro a ha b hb
    rw [of_decide_eq_true (mem_filter.mp ha).2, of_decide_eq_true (mem_filter.mp hb).2]
  have hsublist := (sublist_insertionSort hsorted filter_sublist).filter fun a => key a = k
  rw [filter_filter] at hsublist
  simp only [Bool.and_self] at hsublist
  have hperm := (perm_insertionSort (fun a b => key a ≤ key b) l).filter fun a => key a = k
  exact (hsublist.eq_of_length hperm.length_eq.symm).symm

/-- Elements that are added to a list stand between the others, which keep their order. -/
theorem insertionSort_sublist (key : α → κ) {l l' : List α} (h : l.Sublist l') :
    (l.insertionSort fun a b => key a ≤ key b).Sublist
      (l'.insertionSort fun a b => key a ≤ key b) := by
  have htotal : Std.Total fun a b : α => key a ≤ key b := ⟨fun a b => le_total _ _⟩
  have htrans : IsTrans α fun a b => key a ≤ key b := ⟨fun _ _ _ => le_trans⟩
  induction h with
  | slnil => exact Sublist.refl _
  | cons a _ ih => exact ih.trans (sublist_orderedInsert a _)
  | cons_cons a _ ih => exact Sublist.orderedInsert_sublist a ih (pairwise_insertionSort _ _)

/-- The first of the largest is chosen. -/
theorem argmax_cons_of_le [DecidableEq α] {f : α → κ} {a : α} {l : List α}
    (h : ∀ b ∈ l, f b ≤ f a) :
    (a :: l).argmax f = some a := by
  refine argmax_eq_some_iff.mpr ⟨mem_cons_self, ?_, fun b _ _ => ?_⟩
  · simpa using h
  · rw [idxOf_cons_self]
    exact Nat.zero_le _

/-- What is chosen is still chosen when others are taken away. -/
theorem argmax_filter {f : α → κ} {q : α → Bool} {l : List α} {m : α}
    (h : l.argmax f = some m) (hm : q m = true) : (l.filter q).argmax f = some m := by
  induction l using reverseRecOn generalizing m with
  | nil => cases h
  | append_singleton l a ih =>
    rw [argmax_concat] at h
    rw [filter_append]
    cases hl : l.argmax f with
    | none =>
      obtain rfl := argmax_eq_none.mp hl
      obtain rfl : a = m := by simpa using h
      simp [hm]
    | some c =>
      rw [hl] at h
      dsimp only at h
      split_ifs at h with hlt
      · -- the last is larger than all before it
        obtain rfl := Option.some.inj h
        rw [filter_cons_of_pos hm, filter_nil, argmax_concat]
        cases hfilter : (l.filter q).argmax f with
        | none => rfl
        | some d =>
          have hd : f d ≤ f c :=
            le_of_mem_argmax (mem_of_mem_filter (argmax_mem hfilter)) hl
          exact if_pos (hd.trans_lt hlt)
      · obtain rfl := Option.some.inj h
        by_cases ha : q a = true
        · rw [filter_cons_of_pos ha, filter_nil, argmax_concat, ih hl hm]
          exact if_neg hlt
        · rw [filter_cons_of_neg ha, filter_nil, append_nil, ih hl hm]

end Ties
