import Pilotfish.Dict
import Mathlib.Algebra.BigOperators.Group.List.Basic
import Mathlib.Algebra.Order.BigOperators.Group.List
import Mathlib.Algebra.Order.Group.MinMax
import Mathlib.Algebra.Order.Ring.Rat
import Mathlib.Tactic.LinearCombination
import Mathlib.Tactic.Linarith
import Mathlib.Tactic.Ring

/-!
# Allowances

An account has an allowance and a price for every unit beyond it. What is due for the units beyond
is its overage. A meter that looks at the account before a send charges all of the send or nothing.

Results:
1. `overage_send`: a send adds to the overage what is charged for it and what is missed.
2. `charges_append`, `overage_after`: the same of many sends.
3. `bill_append`, `overage_credit`: the same of many accounts, each with sends of its own.
4. `bill_of_within`: what leaves all accounts within their allowances was free.
-/

namespace Tariff

/-- Without an allowance nothing is due. -/
structure Account where
  allowance : Option ℚ
  rate : ℚ
  carried : ℤ

namespace Account
variable (a : Account)

/-- There is an allowance, and it is used up. -/
def spent : Bool := a.allowance.any fun allowance => allowance ≤ (a.carried : ℚ)

/-- The units beyond the allowance. -/
def excess : ℚ := a.allowance.elim 0 fun allowance => max ((a.carried : ℚ) - allowance) 0

/-- The units that are left of the allowance. -/
def rest : ℚ := a.allowance.elim 0 fun allowance => max (allowance - (a.carried : ℚ)) 0

def overage : ℚ := a.rate * a.excess

/-! ## One send -/

def send (n : ℤ) : Account := { a with carried := a.carried + n }

/-- A send over a spent allowance is charged in full, and any other is free. -/
def charge (n : ℤ) : ℚ := if a.spent then a.rate * n else 0

/-- What a charge leaves out: the units beyond the allowance of a send that was free, or the units
that one which was charged gave back to the allowance. -/
def missed (n : ℤ) : ℚ := a.rate * if a.spent then (a.send n).rest else (a.send n).excess

theorem overage_send (n : ℤ) : (a.send n).overage = a.overage + a.charge n + a.missed n := by
  obtain ⟨allowance, rate, carried⟩ := a
  unfold overage charge missed spent
  cases allowance with
  | none => simp [send, excess]
  | some allowance =>
    have hsend : ((carried + n : ℤ) : ℚ) = carried + n := Int.cast_add carried n
    simp only [send, excess, rest, Option.elim, Option.any, decide_eq_true_eq, hsend]
    split_ifs with hspent
    · have hexcess : max ((carried : ℚ) - allowance) 0 = carried - allowance :=
        max_eq_left (sub_nonneg.mpr hspent)
      have hsplit := max_zero_sub_max_neg_zero_eq_self ((carried : ℚ) + n - allowance)
      rw [neg_sub] at hsplit
      rw [hexcess]
      linear_combination rate * hsplit
    · have hexcess : max ((carried : ℚ) - allowance) 0 = 0 :=
        max_eq_right (sub_nonpos.mpr (not_le.mp hspent).le)
      rw [hexcess]
      ring

/-! ## Many sends -/

def after (sent : List ℤ) : Account := { a with carried := a.carried + sent.sum }

theorem after_nil : a.after [] = a := by
  simp [after]

theorem after_cons (n : ℤ) (sent : List ℤ) : a.after (n :: sent) = (a.send n).after sent := by
  simp [after, send, add_assoc]

theorem after_append (sent later : List ℤ) :
    a.after (sent ++ later) = (a.after sent).after later := by
  simp [after, add_assoc]

/-- What is charged for sends, one after the other. -/
def charges : Account → List ℤ → ℚ
  | _, [] => 0
  | a, n :: sent => a.charge n + charges (a.send n) sent

/-- What is missed of sends, one after the other. -/
def misses : Account → List ℤ → ℚ
  | _, [] => 0
  | a, n :: sent => a.missed n + misses (a.send n) sent

theorem charges_append (sent later : List ℤ) :
    a.charges (sent ++ later) = a.charges sent + (a.after sent).charges later := by
  induction sent generalizing a with
  | nil => simp [charges, after_nil]
  | cons n sent ih =>
    rw [List.cons_append, charges, charges, after_cons, ih, add_assoc]

theorem overage_after (sent : List ℤ) :
    (a.after sent).overage = a.overage + a.charges sent + a.misses sent := by
  induction sent generalizing a with
  | nil => simp [charges, misses, after_nil]
  | cons n sent ih =>
    rw [after_cons, ih, overage_send, charges, misses]
    ring

/-! ## Within the allowance -/

/-- Nothing was carried beyond the allowance. -/
def Within : Prop := ∀ allowance, a.allowance = some allowance → (a.carried : ℚ) ≤ allowance

variable {a}

/-- A send over a spent allowance stays within it only if nothing is sent. -/
theorem charge_of_within {n : ℤ} (hn : 0 ≤ n) (h : (a.send n).Within) : a.charge n = 0 := by
  unfold charge
  split_ifs with hspent
  · unfold spent at hspent
    obtain ⟨allowance, hallowance, hreached⟩ := (Option.any_eq_true _ _).mp hspent
    have hwithin := h allowance hallowance
    have hsend : ((a.carried + n : ℤ) : ℚ) = a.carried + n := Int.cast_add a.carried n
    rw [send, hsend] at hwithin
    have hnonpos : (n : ℚ) ≤ 0 := by
      linarith [of_decide_eq_true hreached]
    rw [le_antisymm hnonpos (by exact_mod_cast hn), mul_zero]
  · rfl

theorem within_of_after {sent : List ℤ} (hsent : ∀ n ∈ sent, 0 ≤ n) (h : (a.after sent).Within) :
    a.Within := by
  intro allowance hallowance
  have hafter := h allowance hallowance
  have hsum : (0 : ℚ) ≤ sent.sum := by exact_mod_cast List.sum_nonneg hsent
  rw [after, Int.cast_add] at hafter
  linarith

/-- Sends that leave an account within its allowance were free. -/
theorem charges_of_within {sent : List ℤ} (hsent : ∀ n ∈ sent, 0 ≤ n) (h : (a.after sent).Within) :
    a.charges sent = 0 := by
  induction sent generalizing a with
  | nil => rfl
  | cons n sent ih =>
    obtain ⟨hn, hrest⟩ := List.forall_mem_cons.mp hsent
    rw [after_cons] at h
    rw [charges, charge_of_within hn (within_of_after hrest h), ih hrest h, add_zero]

end Account

/-! ## Many accounts -/

section Ledgers
variable {κ : Type} [DecidableEq κ]

/-- What was sent for one account. -/
def sentFor (k : κ) (sends : List (κ × ℤ)) : List ℤ := (sends.filter (·.1 = k)).map Prod.snd

theorem sentFor_append (k : κ) (sends later : List (κ × ℤ)) :
    sentFor k (sends ++ later) = sentFor k sends ++ sentFor k later := by
  rw [sentFor, List.filter_append, List.map_append]
  rfl

theorem sentFor_single (k k' : κ) (n : ℤ) : sentFor k [(k', n)] = if k' = k then [n] else [] := by
  by_cases hk : k' = k
  · simp [sentFor, hk]
  · simp [sentFor, hk]

variable (ledger : Dict κ Account)

/-- The accounts after some sends. -/
def credit (sends : List (κ × ℤ)) : Dict κ Account :=
  ⟨ledger.items.map fun item => (item.1, item.2.after (sentFor item.1 sends)), by
    rw [List.map_map]
    exact ledger.distinct⟩

/-- What all accounts are charged. -/
def bill (sends : List (κ × ℤ)) : ℚ :=
  (ledger.items.map fun item => item.2.charges (sentFor item.1 sends)).sum

/-- What is missed of all accounts. -/
def unbilled (sends : List (κ × ℤ)) : ℚ :=
  (ledger.items.map fun item => item.2.misses (sentFor item.1 sends)).sum

def overage : ℚ := (ledger.items.map fun item => item.2.overage).sum

theorem credit_nil : credit ledger [] = ledger := by
  refine Dict.ext_items ?_
  simp [credit, sentFor, Account.after_nil]

theorem credit_append (sends later : List (κ × ℤ)) :
    credit ledger (sends ++ later) = credit (credit ledger sends) later := by
  refine Dict.ext_items ?_
  simp [credit, sentFor_append, Account.after_append]

theorem bill_nil : bill ledger [] = 0 := by
  simp [bill, sentFor, Account.charges]

/-- A bill is the bill of the first sends, and that of the rest on what the first left. -/
theorem bill_append (sends later : List (κ × ℤ)) :
    bill ledger (sends ++ later) = bill ledger sends + bill (credit ledger sends) later := by
  unfold bill credit
  rw [List.map_map, ← List.sum_map_add]
  refine congrArg List.sum (List.map_congr_left ?_)
  intro item _
  rw [sentFor_append, Account.charges_append]
  rfl

theorem overage_credit (sends : List (κ × ℤ)) : overage (credit ledger sends) =
    overage ledger + bill ledger sends + unbilled ledger sends := by
  unfold overage bill unbilled credit
  rw [List.map_map, ← List.sum_map_add, ← List.sum_map_add]
  refine congrArg List.sum (List.map_congr_left ?_)
  intro item _
  exact Account.overage_after item.2 _

/-! ## A send for one account -/

theorem credit_single (k : κ) (n : ℤ) : credit ledger [(k, n)] = ledger.modify k (·.send n) := by
  refine Dict.ext_items (List.map_congr_left ?_)
  intro item _
  rw [sentFor_single]
  by_cases hk : k = item.1
  · simp [hk, Account.after_cons, Account.after_nil]
  · simp [hk, Ne.symm hk, Account.after_nil]

theorem sum_single {α : Type} {items : List (κ × α)} (hdistinct : (items.map Prod.fst).Nodup)
    {k : κ} {v : α} (h : (k, v) ∈ items) (f : α → ℚ) :
    (items.map fun item => if k = item.1 then f item.2 else 0).sum = f v := by
  induction items with
  | nil => cases h
  | cons item items ih =>
    obtain ⟨hfirst, hrest⟩ := List.nodup_cons.mp hdistinct
    rw [List.map_cons, List.sum_cons]
    rcases List.mem_cons.mp h with rfl | hmem
    · have hzero : ∀ x ∈ items.map fun item => if k = item.1 then f item.2 else 0, x = 0 := by
        intro x hx
        obtain ⟨other, hother, rfl⟩ := List.mem_map.mp hx
        refine if_neg ?_
        rintro rfl
        exact hfirst (List.mem_map.mpr ⟨other, hother, rfl⟩)
      rw [List.sum_eq_zero hzero, if_pos rfl, add_zero]
    · have hne : k ≠ item.1 := by
        rintro rfl
        exact hfirst (List.mem_map.mpr ⟨_, hmem, rfl⟩)
      rw [if_neg hne, zero_add, ih hrest hmem]

theorem bill_single {k : κ} {a : Account} (h : ledger.get? k = some a) (n : ℤ) :
    bill ledger [(k, n)] = a.charge n := by
  have hterm (item : κ × Account) : item.2.charges (sentFor item.1 [(k, n)]) =
      if k = item.1 then item.2.charge n else 0 := by
    rw [sentFor_single]
    by_cases hk : k = item.1
    · simp [hk, Account.charges]
    · simp [hk, Account.charges]
  unfold bill
  simp only [hterm]
  exact sum_single ledger.distinct (Dict.get?_eq_some.mp h) fun a => a.charge n

/-! ## All within their allowances -/

def Within : Prop := ∀ item ∈ ledger.items, item.2.Within

variable {ledger}

theorem bill_of_within {sends : List (κ × ℤ)} (hsends : ∀ send ∈ sends, 0 ≤ send.2)
    (h : Within (credit ledger sends)) : bill ledger sends = 0 := by
  refine List.sum_eq_zero ?_
  intro x hx
  obtain ⟨item, hitem, rfl⟩ := List.mem_map.mp hx
  refine Account.charges_of_within ?_ (h _ (List.mem_map.mpr ⟨item, hitem, rfl⟩))
  intro n hn
  obtain ⟨send, hsend, rfl⟩ := List.mem_map.mp hn
  exact hsends send (List.mem_filter.mp hsend).1

end Ledgers

end Tariff
