import Pilotfish.EvidenceOrder

/-!
# What the evidence hash identifies

Observations are equal when their fields are, instants as instants and numbers as numbers. What
is hashed of an observation holds the float of its instant and its number as it is spelt, and
rows that compare equal are hashed in the order they came in.

Results:
1. `row_injective`: what the row of an observation tells.
2. `sameEvidence_of_perm`, `perm_of_sameEvidence`: equal evidence where rows identify observations.
3. `hash_identifies_iff`: among snapshots of some observations the hash identifies the evidence
   exactly when no two different observations have rows that compare equal.
-/

namespace Pilotfish
open Python

/-! ## Equal observations -/

/-- `o == p`. -/
structure Observation.Equal (o p : Observation) : Prop where
  linkId : o.linkId = p.linkId
  quantity : o.quantity = p.quantity
  value : o.value.value.eq p.value.value = true
  atTime : o.atTime.us = p.atTime.us
  source : o.source = p.source

/-- The observations of two snapshots can be paired off so that each equals its partner. -/
def SameEvidence (e₁ e₂ : EvidenceSnapshot) : Prop :=
  ∃ partners : List Observation, partners.Perm e₂.observations ∧
    List.Forall₂ Observation.Equal e₁.observations partners

/-- An integer of at most 53 bits is finite as a float. -/
theorem Value.isfinite_int {n : Int} (h : n.natAbs < 2 ^ 53) :
    (Value.int n).isfinite = .ok true := by
  have hlt : 2 ^ 53 ≤ 2 ^ 1024 - 2 ^ 970 := by decide +kernel
  have hn : n.natAbs < 2 ^ 1024 - 2 ^ 970 := h.trans_le hlt
  rw [Value.isfinite, if_pos hn]

theorem Num.number (x : Num) : x.value.number = some (.fin x.toRat) ∨
    x.value.number = some .negZero ∧ x.toRat = 0 := by
  obtain ⟨v, hv⟩ := x
  cases v with
  | bool b => exact .inl rfl
  | int n => exact .inl rfl
  | float y =>
    cases y with
    | fin q => exact .inl rfl
    | negZero => exact .inr ⟨rfl, rfl⟩
    | _ => cases hv
  | _ => cases hv

/-- Numbers are equal when they denote the same, in whatever spelling. -/
theorem Num.eq_iff {x y : Num} : x.value.eq y.value = true ↔ x.toRat = y.toRat := by
  rcases x.number with hx | ⟨hx, hx0⟩
  · rcases y.number with hy | ⟨hy, hy0⟩
    · simp [Value.eq_of_number hx hy, Double.eq]
    · simp [Value.eq_of_number hx hy, Double.eq, hy0]
  · rcases y.number with hy | ⟨hy, hy0⟩
    · rw [Value.eq_of_number hx hy, hx0, Double.eq, beq_iff_eq]
      exact eq_comm
    · simp [Value.eq_of_number hx hy, Double.eq, hx0, hy0]

theorem Observation.Equal.refl (o : Observation) : o.Equal o :=
  ⟨rfl, rfl, Num.eq_iff.mpr rfl, rfl, rfl⟩

namespace EvidenceSnapshot

/-- Equal observations are sorted alike. -/
theorem rowKey_of_equal {o p : Observation} (h : o.Equal p) : rowKey o = rowKey p := by
  have htime : o.atTime = p.atTime := DateTime.ext h.atTime
  rw [rowKey, rowKey, h.linkId, h.quantity, htime, h.source, Num.eq_iff.mp h.value]

/-- A row tells the observation but for the part of its instant that a float does not hold. -/
theorem row_injective {o p : Observation} (h : row o = row p) (htime : o.atTime = p.atTime) :
    o = p := by
  obtain ⟨linkId, quantity, value, atTime, source⟩ := o
  obtain ⟨linkId', quantity', value', atTime', source'⟩ := p
  obtain rfl : atTime = atTime' := htime
  simp only [row, Value.list.injEq, List.cons.injEq, Value.str.injEq, and_true, true_and] at h
  obtain ⟨rfl, rfl, rfl, hvalue⟩ := h
  rw [Num.ext hvalue]

theorem rowKey_of_row {o p : Observation} (h : row o = row p) : rowKey o = rowKey p := by
  simp only [row, Value.list.injEq, List.cons.injEq, Value.str.injEq, Value.float.injEq,
    Double.fin.injEq, and_true] at h
  obtain ⟨hlink, hquantity, htime, hsource, hvalue⟩ := h
  rw [rowKey, rowKey, hlink, hquantity, htime, hsource, Num.ext hvalue]

end EvidenceSnapshot

open EvidenceSnapshot

/-! ## Snapshots of some observations -/

/-- A snapshot of some of the observations, in any order. -/
def DrawnFrom (observations : List Observation) (evidence : EvidenceSnapshot) : Prop :=
  evidence.observations.Subperm observations

/-- No two different observations have rows that compare equal. -/
def RowsApart (observations : List Observation) : Prop :=
  ∀ o ∈ observations, ∀ p ∈ observations, rowKey o = rowKey p → o = p

/-- The encodings of such snapshots are without a collision. -/
def HashesApart (rt : Runtime) (observations : List Observation) : Prop :=
  ∀ e₁ e₂, DrawnFrom observations e₁ → DrawnFrom observations e₂ →
    rt.sha256 (rt.encoding (.list e₁.rows)) = rt.sha256 (rt.encoding (.list e₂.rows)) →
    rt.encoding (.list e₁.rows) = rt.encoding (.list e₂.rows)

/-- Lists that are related place by place are the same where related elements are. -/
theorem eq_of_forall₂ {α : Type} {R : α → α → Prop} {xs ys : List α} (h : List.Forall₂ R xs ys)
    (hR : ∀ x ∈ xs, ∀ y ∈ ys, R x y → x = y) : xs = ys := by
  induction h with
  | nil => rfl
  | cons hxy _ ih =>
    rw [hR _ List.mem_cons_self _ List.mem_cons_self hxy,
      ih fun x hx y hy => hR x (List.mem_cons_of_mem _ hx) y (List.mem_cons_of_mem _ hy)]

section Drawn
variable {rt : Runtime} {observations : List Observation} {e₁ e₂ : EvidenceSnapshot}

theorem sameEvidence_of_perm (h : e₁.observations.Perm e₂.observations) : SameEvidence e₁ e₂ :=
  ⟨e₁.observations, h, List.forall₂_same.mpr fun o _ => Observation.Equal.refl o⟩

/-- Where rows identify observations, equal evidence is the same in another order. -/
theorem perm_of_sameEvidence (hapart : RowsApart observations) (h₁ : DrawnFrom observations e₁)
    (h₂ : DrawnFrom observations e₂) (h : SameEvidence e₁ e₂) :
    e₁.observations.Perm e₂.observations := by
  obtain ⟨partners, hperm, hpairs⟩ := h
  have heq : e₁.observations = partners := by
    refine eq_of_forall₂ hpairs ?_
    intro o ho p hp hequal
    exact hapart o (h₁.subset ho) p (h₂.subset (hperm.subset hp)) (rowKey_of_equal hequal)
  exact heq ▸ hperm

/-- Rows in one order, where no two that compare equal differ. -/
theorem rows_of_perm (hapart : RowsApart observations) (h₁ : DrawnFrom observations e₁)
    (h : e₁.observations.Perm e₂.observations) : e₁.rows = e₂.rows :=
  Ties.map_insertionSort_perm rowKey row h fun o ho p hp hkey =>
    congrArg row (hapart o (h₁.subset ho) p (h₁.subset hp) hkey)

/-- The same rows are of the same observations. -/
theorem perm_of_rows (hapart : RowsApart observations) (h₁ : DrawnFrom observations e₁)
    (h₂ : DrawnFrom observations e₂) (h : e₁.rows = e₂.rows) :
    e₁.observations.Perm e₂.observations := by
  have hsort (e : EvidenceSnapshot) :=
    List.perm_insertionSort (fun o p => rowKey o ≤ rowKey p) e.observations
  have hsorted : e₁.observations.insertionSort (fun o p => rowKey o ≤ rowKey p) =
      e₂.observations.insertionSort (fun o p => rowKey o ≤ rowKey p) := by
    have hrows : List.Forall₂ (fun o p => row o = row p)
        (e₁.observations.insertionSort fun o p => rowKey o ≤ rowKey p)
        (e₂.observations.insertionSort fun o p => rowKey o ≤ rowKey p) := by
      have hmap : List.Forall₂ (· = ·) e₁.rows e₂.rows := by rw [List.forall₂_eq_eq_eq, h]
      exact List.forall₂_map_left_iff.mp (List.forall₂_map_right_iff.mp hmap)
    refine eq_of_forall₂ hrows ?_
    intro o ho p hp hrow
    exact hapart o (h₁.subset ((hsort e₁).subset ho)) p (h₂.subset ((hsort e₂).subset hp))
      (rowKey_of_row hrow)
  exact (hsort e₁).symm.trans (hsorted ▸ hsort e₂)

variable (laws : rt.Lawful) (free : HashesApart rt observations)
include laws free

/-- Snapshots of one hash have the same rows. -/
theorem hash_eq_iff (h₁ : DrawnFrom observations e₁) (h₂ : DrawnFrom observations e₂) :
    e₁.hash rt = e₂.hash rt ↔ e₁.rows = e₂.rows := by
  constructor
  · intro h
    have hplain (e : EvidenceSnapshot) : (Value.list e.rows).plain = true := by
      have hvalue (x : Num) : x.value.plain = true := Value.plain_of_isfinite x.finite
      simp [rows, row, hvalue]
    have hdumps := free e₁ e₂ h₁ h₂ (hex_injective h)
    have hloads := laws.loads_dumps _ (hplain e₁)
    rw [hdumps, laws.loads_dumps _ (hplain e₂), Except.ok.injEq, Value.list.injEq] at hloads
    exact hloads.symm
  · intro h
    rw [EvidenceSnapshot.hash, EvidenceSnapshot.hash, h]

/-- Two observations that are told apart by the hash alone, or not even by it. -/
theorem eq_of_hash_identifies
    (h : ∀ e₁ e₂, DrawnFrom observations e₁ → DrawnFrom observations e₂ →
      (e₁.hash rt = e₂.hash rt ↔ SameEvidence e₁ e₂)) : RowsApart observations := by
  intro o ho p hp hkey
  by_contra hne
  have hone {q : Observation} (hq : q ∈ observations) : DrawnFrom observations ⟨[q]⟩ :=
    List.singleton_subperm_iff.mpr hq
  have hpair {q r : Observation} (hq : q ∈ observations) (hr : r ∈ observations) (hqr : q ≠ r) :
      DrawnFrom observations ⟨[q, r]⟩ := by
    refine List.Nodup.subperm (by simp [hqr]) ?_
    simp [hq, hr]
  -- in the other order the rows come in the other order, unless they are the same
  have hswap : SameEvidence ⟨[o, p]⟩ ⟨[p, o]⟩ := sameEvidence_of_perm (.swap p o [])
  have hrows := (hash_eq_iff laws free (hpair ho hp hne) (hpair hp ho (Ne.symm hne))).mp
    ((h _ _ (hpair ho hp hne) (hpair hp ho (Ne.symm hne))).mpr hswap)
  have hrow : row o = row p := by
    obtain ⟨s, t, hop, hpo⟩ := Ties.insertionSort_tie rowKey hkey []
    rw [rows, rows, hop, hpo, List.map_append, List.map_append, List.append_cancel_left_eq] at hrows
    exact (List.cons.inj hrows).1
  -- then one of them alone has the hash of the other alone, and they differ in their instants
  have hsame : (EvidenceSnapshot.mk [o]).rows = (EvidenceSnapshot.mk [p]).rows := by
    simp [rows, hrow]
  obtain ⟨partners, hperm, hpairs⟩ := (h _ _ (hone ho) (hone hp)).mp
    ((hash_eq_iff laws free (hone ho) (hone hp)).mpr hsame)
  obtain rfl := List.perm_singleton.mp hperm
  obtain ⟨hequal, -⟩ := List.forall₂_cons.mp hpairs
  exact hne (row_injective hrow (DateTime.ext hequal.atTime))

end Drawn

/-- Among the snapshots of some observations the hash identifies the evidence exactly when no two
different observations have rows that compare equal. -/
theorem hash_identifies_iff {rt : Runtime} (laws : rt.Lawful) {observations : List Observation}
    (free : HashesApart rt observations) :
    (∀ e₁ e₂, DrawnFrom observations e₁ → DrawnFrom observations e₂ →
      (e₁.hash rt = e₂.hash rt ↔ SameEvidence e₁ e₂)) ↔ RowsApart observations := by
  constructor
  · exact eq_of_hash_identifies laws free
  · intro hapart e₁ e₂ h₁ h₂
    rw [hash_eq_iff laws free h₁ h₂]
    constructor
    · exact fun h => sameEvidence_of_perm (perm_of_rows hapart h₁ h₂ h)
    · exact fun h => rows_of_perm hapart h₁ (perm_of_sameEvidence hapart h₁ h₂ h)

namespace Sample

/-- The link is up, as an integer. -/
def upAsInt : Observation :=
  { upAt "fiber0" 0 with value := ⟨.int 1, Value.isfinite_int (by decide)⟩ }

end Sample

/-- One measurement of a link, spelt as a float and as an integer, is equal to itself and has two
hashes. -/
theorem equal_evidence_hashes_apart : SameEvidence ⟨[Sample.upAt "fiber0" 0]⟩ ⟨[Sample.upAsInt]⟩ ∧
    (EvidenceSnapshot.mk [Sample.upAt "fiber0" 0]).hash standIn ≠
      (EvidenceSnapshot.mk [Sample.upAsInt]).hash standIn := by
  constructor
  · refine ⟨[Sample.upAsInt], .refl _, .cons ⟨rfl, rfl, ?_, rfl, rfl⟩ .nil⟩
    exact Num.eq_iff.mpr rfl
  · decide +kernel

/-- Two reports have one hash in either order, and another than one of them alone. -/
theorem hash_identifies_iff_sample :
    let up := Sample.upAt "fiber0" 0
    let also := Sample.alsoUp
    (EvidenceSnapshot.mk [up, also]).hash standIn = (EvidenceSnapshot.mk [also, up]).hash standIn ∧
      (EvidenceSnapshot.mk [up, also]).hash standIn ≠ (EvidenceSnapshot.mk [up]).hash standIn := by
  intro up also
  have hapart : RowsApart [up, also] := by
    have hne : rowKey up ≠ rowKey also := by decide +kernel
    simp only [RowsApart, List.forall_mem_cons, List.not_mem_nil, false_imp_iff, implies_true,
      and_true]
    exact ⟨⟨trivial, fun h => absurd h hne⟩, fun h => absurd h.symm hne⟩
  have hfree : HashesApart standIn [up, also] := by
    -- what is drawn has the rows of one of the four parts, and these are hashed apart
    have hparts : ∀ l₁ ∈ [up, also].sublists, ∀ l₂ ∈ [up, also].sublists,
        standIn.sha256 (standIn.encoding (.list (EvidenceSnapshot.mk l₁).rows)) =
          standIn.sha256 (standIn.encoding (.list (EvidenceSnapshot.mk l₂).rows)) →
        standIn.encoding (.list (EvidenceSnapshot.mk l₁).rows) =
          standIn.encoding (.list (EvidenceSnapshot.mk l₂).rows) := by decide +kernel
    have hrows (e : EvidenceSnapshot) (he : DrawnFrom [up, also] e) :
        ∃ l ∈ [up, also].sublists, e.rows = (EvidenceSnapshot.mk l).rows := by
      obtain ⟨l, hperm, hsub⟩ := he
      exact ⟨l, List.mem_sublists.mpr hsub, rows_of_perm hapart ⟨l, hperm, hsub⟩ hperm.symm⟩
    intro e₁ e₂ h₁ h₂ h
    obtain ⟨l₁, hl₁, hrows₁⟩ := hrows e₁ h₁
    obtain ⟨l₂, hl₂, hrows₂⟩ := hrows e₂ h₂
    rw [hrows₁, hrows₂] at h ⊢
    exact hparts l₁ hl₁ l₂ hl₂ h
  have hidentifies := (hash_identifies_iff lawful_standIn hfree).mpr hapart
  have hboth : DrawnFrom [up, also] ⟨[up, also]⟩ := .refl _
  constructor
  · have hswapped : DrawnFrom [up, also] ⟨[also, up]⟩ := (List.Perm.swap up also []).subperm
    exact (hidentifies _ _ hboth hswapped).mpr (sameEvidence_of_perm (.swap also up []))
  · have hone : DrawnFrom [up, also] ⟨[up]⟩ := List.singleton_subperm_iff.mpr (by simp)
    intro h
    obtain ⟨partners, hperm, hpairs⟩ := (hidentifies _ _ hboth hone).mp h
    have hlength := hpairs.length_eq.trans hperm.length_eq
    cases hlength

end Pilotfish
