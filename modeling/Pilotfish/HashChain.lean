import Mathlib.Data.List.Induction

/-!
# Hash chains

A chain is a list in which every element follows the hash and the number of the one before it.
What it takes to follow is a parameter.

Results:
1. `linked_append`: a chain goes on where it ends.
2. `last_append_singleton`: the end of a chain that was extended.
3. `prefix_of_subset`: a chain made of elements of another chain is a prefix of it.
4. `map_eq_of_last`: two chains with one end are alike from the start.
5. `Linked.replace`: elements that follow and hash alike may stand for those of a chain.
-/

namespace HashChain

variable {α H : Type} (follows : H → Int → α → Prop) (hash : α → H)

/-- Each element follows: the first of them `prev` and `n`, the others their predecessors. -/
def Linked (prev : H) (n : Int) : List α → Prop
  | [] => True
  | x :: xs => follows prev n x ∧ Linked (hash x) (n + 1) xs

/-- What the next element has to follow. -/
def last (prev : H) : List α → H
  | [] => prev
  | x :: xs => last (hash x) xs

variable {follows hash}

@[simp] theorem last_append_singleton (prev : H) (xs : List α) (x : α) :
    last hash prev (xs ++ [x]) = hash x := by
  induction xs generalizing prev with
  | nil => rfl
  | cons y xs ih => exact ih (hash y)

theorem linked_append {prev : H} {n : Int} {xs ys : List α} :
    Linked follows hash prev n (xs ++ ys) ↔
    Linked follows hash prev n xs ∧ Linked follows hash (last hash prev xs) (n + xs.length) ys := by
  induction xs generalizing prev n with
  | nil => simp [Linked, last]
  | cons x xs ih =>
    have hn : n + 1 + (xs.length : Int) = n + ((x :: xs).length : Int) := by
      rw [List.length_cons]
      omega
    rw [List.cons_append, Linked, Linked, ih, last, hn, and_assoc]

/-! ## What can be done to a chain -/

section Alteration
variable {prev q : H} {n m : Int} {xs ys : List α}

/-- No element bears a number below the one the chain starts at. -/
theorem le_of_follows (number : ∀ p q n m x, follows p n x → follows q m x → n = m)
    (h : Linked follows hash prev n xs) {x : α} (hx : x ∈ xs) (hm : follows q m x) : n ≤ m := by
  induction xs generalizing prev n with
  | nil => cases hx
  | cons y ys ih =>
    obtain ⟨hy, hys⟩ := h
    rcases List.mem_cons.mp hx with rfl | hx
    · exact Int.le_of_eq (number _ _ _ _ _ hy hm)
    · exact Int.le_of_lt (Int.lt_of_add_one_le (ih hys hx))

/-- A chain of elements of another chain is a prefix of it: each element has its one place. -/
theorem prefix_of_subset (number : ∀ p q n m x, follows p n x → follows q m x → n = m)
    (hxs : Linked follows hash prev n xs) (hys : Linked follows hash q n ys) (hsub : ys ⊆ xs) :
    ys <+: xs := by
  induction ys generalizing prev q n xs with
  | nil => exact List.nil_prefix
  | cons y ys ih =>
    cases xs with
    | nil => exact absurd (hsub List.mem_cons_self) List.not_mem_nil
    | cons x xs =>
      obtain ⟨hx, hxs⟩ := hxs
      obtain ⟨hy, hys⟩ := hys
      -- the rest of either chain starts above `n`
      have hhead : y = x := by
        rcases List.mem_cons.mp (hsub List.mem_cons_self) with h | h
        · exact h
        · exact absurd (le_of_follows number hxs h hy) (Int.not_le.mpr (Int.lt_succ n))
      have htail : ys ⊆ xs := by
        intro z hz
        rcases List.mem_cons.mp (hsub (List.mem_cons_of_mem y hz)) with rfl | h
        · exact absurd (le_of_follows number hys hz hx) (Int.not_le.mpr (Int.lt_succ n))
        · exact h
      rw [hhead]
      exact List.cons_prefix_cons.mpr ⟨rfl, ih hxs hys htail⟩

/-- Where equal hashes mean equal contents, and the contents hold the link, two chains of one
length with one end are alike element by element. -/
theorem map_eq_of_last {K : Type} {key : α → K}
    (link : ∀ p q n m x y, follows p n x → follows q m y → key x = key y → p = q)
    (injective : ∀ x ∈ xs, ∀ y ∈ ys, hash x = hash y → key x = key y)
    (hxs : Linked follows hash prev n xs) (hys : Linked follows hash prev n ys)
    (hlen : xs.length = ys.length) (hlast : last hash prev xs = last hash prev ys) :
    xs.map key = ys.map key := by
  induction xs using List.reverseRec generalizing ys with
  | nil => rw [List.length_eq_zero_iff.mp hlen.symm]
  | append_singleton xs x ih =>
    cases ys using List.reverseRecOn with
    | nil => simp at hlen
    | append_singleton ys y =>
      obtain ⟨hxs, hx, -⟩ := linked_append.mp hxs
      obtain ⟨hys, hy, -⟩ := linked_append.mp hys
      rw [last_append_singleton, last_append_singleton] at hlast
      have hkey := injective x (by simp) y (by simp) hlast
      have hrest := ih (fun a ha b hb => injective a (by simp [ha]) b (by simp [hb])) hxs hys
        (by simpa using hlen) (link _ _ _ _ _ _ hx hy hkey)
      rw [List.map_append, List.map_append, hrest, List.map_singleton, List.map_singleton, hkey]

end Alteration

/-! ## One chain for another -/

section Replacement
variable {β : Type} {follows' : H → Int → β → Prop} {hash' : β → H} {R : α → β → Prop} {prev : H}
  {n : Int} {xs : List α} {ys : List β}

theorem Linked.replace (hfollows : ∀ p n x y, R x y → follows p n x → follows' p n y)
    (hhash : ∀ x y, R x y → hash x = hash' y) (hxs : Linked follows hash prev n xs)
    (h : List.Forall₂ R xs ys) : Linked follows' hash' prev n ys := by
  induction h generalizing prev n with
  | nil => trivial
  | cons hxy _ ih =>
    obtain ⟨hx, hxs⟩ := hxs
    refine ⟨hfollows _ _ _ _ hxy hx, ?_⟩
    rw [← hhash _ _ hxy]
    exact ih hxs

theorem last_congr (hhash : ∀ x y, R x y → hash x = hash' y) (h : List.Forall₂ R xs ys) :
    last hash prev xs = last hash' prev ys := by
  induction h generalizing prev with
  | nil => rfl
  | cons hxy _ ih =>
    rw [last, last, hhash _ _ hxy]
    exact ih

end Replacement

end HashChain
