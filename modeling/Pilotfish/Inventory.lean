import Pilotfish.FloorAdmission

/-!
# What the inventory hash identifies

The hash of an inventory stands for the links in it, how often each is listed, and every field of
theirs but the owner. The order of the links is not in it.

Results:
1. `linkInventoryHash_eq_iff`: one hash is one multiset of keys.
2. `linkInventoryHash_identifies`: what that says of a link more, a link changed and another order.
-/

namespace Pilotfish
open Python

/-! ## Encodings -/

/-- SHA-256 does not collide on what these inventories are encoded to. -/
def EncodingsApart (rt : Runtime) (inventories : Set (List Link)) : Prop :=
  Set.InjOn rt.sha256 {data | ∃ links ∈ inventories, ∃ rows,
    Value.sorted (links.map inventoryRow) = .ok rows ∧ rt.encoding (.list rows) = data}

section Encodings
variable {rt : Runtime} {inventories : Set (List Link)} {own links : List Link}

/-- Sorted rows of one encoding are the same rows. -/
theorem rows_of_dumps (laws : rt.Lawful) {rows rows' : List Value}
    (h : Value.sorted (own.map inventoryRow) = .ok rows)
    (h' : Value.sorted (links.map inventoryRow) = .ok rows')
    (hdumps : rt.encoding (.list rows) = rt.encoding (.list rows')) : rows = rows' := by
  have hloads := laws.loads_dumps _ (plain_rows h)
  rw [hdumps, laws.loads_dumps _ (plain_rows h')] at hloads
  exact (Value.list.inj (Except.ok.inj hloads)).symm

theorem inventoriesApart (laws : rt.Lawful) (free : EncodingsApart rt inventories)
    (hown : own ∈ inventories) (hlinks : links ∈ inventories) :
    InventoriesApart rt own links := by
  intro rows rows' hrows hrows'
  have hencoded : ∀ v ∈ [Value.list rows, .list rows'], ∃ links ∈ inventories, ∃ rows,
      Value.sorted (links.map inventoryRow) = .ok rows ∧ v = .list rows := by
    intro v hv
    rcases List.mem_pair.mp hv with rfl | rfl
    · exact ⟨own, hown, rows, hrows, rfl⟩
    · exact ⟨links, hlinks, rows', hrows', rfl⟩
  intro v hv w hw hdigest
  obtain ⟨l, hl, xs, hxs, rfl⟩ := hencoded v hv
  obtain ⟨m, hm, ys, hys, rfl⟩ := hencoded w hw
  rw [rows_of_dumps laws hxs hys (free ⟨l, hl, xs, hxs, rfl⟩ ⟨m, hm, ys, hys, rfl⟩ hdigest)]

end Encodings

/-! ## Keys -/

theorem keyRow_injective : Function.Injective keyRow := by
  intro a b h
  rw [← compares_keyRow.eq, h, compares_keyRow.eq]

theorem map_inventoryRow_perm {own links : List Link} :
    (own.map inventoryRow).Perm (links.map inventoryRow) ↔
      (own.map inventoryKey).Perm (links.map inventoryKey) := by
  rw [map_inventoryRow, map_inventoryRow]
  exact List.map_perm_map_iff keyRow_injective

/-- The key of a link is all of it but its owner. -/
theorem inventoryKey_eq_iff {link link' : Link} :
    inventoryKey link = inventoryKey link' ↔ { link' with owner := link.owner } = link := by
  obtain ⟨_, _, _, _, _, _⟩ := link
  obtain ⟨_, _, _, _, _, _⟩ := link'
  constructor
  · intro h
    cases h
    rfl
  · intro h
    cases h
    rfl

/-! ## Hashes -/

section Hashes
variable {rt : Runtime} {inventories : Set (List Link)} {own links : List Link}

/-- Two inventories have one hash exactly when they have the same keys, each as often. -/
theorem linkInventoryHash_eq_iff (laws : rt.Lawful) (free : EncodingsApart rt inventories)
    (hown : own ∈ inventories) (hlinks : links ∈ inventories) :
    linkInventoryHash rt own = linkInventoryHash rt links ↔
      (own.map inventoryKey).Perm (links.map inventoryKey) := by
  rw [← map_inventoryRow_perm]
  constructor
  · intro h
    obtain ⟨hash, hhash⟩ := linkInventoryHash_ok rt own
    exact perm_of_linkInventoryHash (inventoriesApart laws free hown hlinks) hhash (h ▸ hhash)
  · exact linkInventoryHash_perm

/-- One more link, wherever it is listed, is another hash. -/
theorem linkInventoryHash_ne_of_insert (laws : rt.Lawful) (free : EncodingsApart rt inventories)
    {before after : List Link} {link : Link} (hwithout : before ++ after ∈ inventories)
    (hwith : before ++ link :: after ∈ inventories) :
    linkInventoryHash rt (before ++ link :: after) ≠ linkInventoryHash rt (before ++ after) := by
  intro hsame
  have hlength := ((linkInventoryHash_eq_iff laws free hwith hwithout).mp hsame).length_eq
  simp at hlength

/-- Changing one link is another hash exactly when more of it is changed than its owner. -/
theorem linkInventoryHash_alter_iff (laws : rt.Lawful) (free : EncodingsApart rt inventories)
    {before after : List Link} {link link' : Link} (hlink : before ++ link :: after ∈ inventories)
    (hlink' : before ++ link' :: after ∈ inventories) :
    linkInventoryHash rt (before ++ link :: after) =
        linkInventoryHash rt (before ++ link' :: after) ↔
      { link' with owner := link.owner } = link := by
  rw [linkInventoryHash_eq_iff laws free hlink hlink', ← inventoryKey_eq_iff, List.map_append,
    List.map_append, List.perm_append_left_iff, List.map_cons, List.map_cons]
  constructor
  · intro hperm
    have hcoe := Multiset.coe_eq_coe.mpr hperm
    rw [← Multiset.cons_coe, ← Multiset.cons_coe] at hcoe
    exact (Multiset.cons_inj_left _).mp hcoe
  · intro hkey
    rw [hkey]

/-- Any inventory has a hash, and where hashes do not collide it stands for the multiset of the
links with their owners left out: one link more or one changed in another field is another hash, and
another order is the same. -/
theorem linkInventoryHash_identifies (laws : rt.Lawful) (free : EncodingsApart rt inventories) :
    (∀ links : List Link, ∃ hash, linkInventoryHash rt links = .ok hash) ∧
    (∀ own ∈ inventories, ∀ links ∈ inventories,
      linkInventoryHash rt own = linkInventoryHash rt links ↔
        Multiset.map inventoryKey own = Multiset.map inventoryKey links) ∧
    (∀ before link after, before ++ after ∈ inventories → before ++ link :: after ∈ inventories →
      linkInventoryHash rt (before ++ link :: after) ≠ linkInventoryHash rt (before ++ after)) ∧
    (∀ before link link' after, before ++ link :: after ∈ inventories →
      before ++ link' :: after ∈ inventories →
      (linkInventoryHash rt (before ++ link :: after) =
          linkInventoryHash rt (before ++ link' :: after) ↔
        { link' with owner := link.owner } = link)) ∧
    ∀ own links : List Link, own.Perm links →
      linkInventoryHash rt own = linkInventoryHash rt links := by
  refine ⟨linkInventoryHash_ok rt, ?_, ?_, ?_, ?_⟩
  · intro own hown links hlinks
    rw [linkInventoryHash_eq_iff laws free hown hlinks, Multiset.map_coe, Multiset.map_coe,
      Multiset.coe_eq_coe]
  · intro before link after hwithout hwith
    exact linkInventoryHash_ne_of_insert laws free hwithout hwith
  · intro before link link' after hlink hlink'
    exact linkInventoryHash_alter_iff laws free hlink hlink'
  · intro own links hperm
    exact linkInventoryHash_perm (hperm.map inventoryRow)

end Hashes

/-- A site with a fiber link presents an LTE link more. -/
theorem linkInventoryHash_identifies_sample :
    linkInventoryHash standIn [Sample.fiber0, Sample.lte0] ≠
      linkInventoryHash standIn [Sample.fiber0] := by
  have hfree : EncodingsApart standIn
      {links | links = [Sample.fiber0] ∨ links = [Sample.fiber0, Sample.lte0]} := by
    rintro _ ⟨links, hlinks, rows, hrows, rfl⟩ _ ⟨links', hlinks', rows', hrows', rfl⟩ hsha
    have hone : Value.sorted ([Sample.fiber0].map inventoryRow) =
        .ok [inventoryRow Sample.fiber0] := by rfl
    have htwo : Value.sorted ([Sample.fiber0, Sample.lte0].map inventoryRow) =
        .ok [inventoryRow Sample.fiber0, inventoryRow Sample.lte0] := by rfl
    have hne : standIn.sha256 (standIn.encoding (.list [inventoryRow Sample.fiber0,
        inventoryRow Sample.lte0])) ≠
      standIn.sha256 (standIn.encoding (.list [inventoryRow Sample.fiber0])) := by decide +kernel
    rcases hlinks with rfl | rfl <;> rcases hlinks' with rfl | rfl
    · cases hrows.symm.trans hrows'
      rfl
    · cases hone.symm.trans hrows
      cases htwo.symm.trans hrows'
      exact absurd hsha.symm hne
    · cases htwo.symm.trans hrows
      cases hone.symm.trans hrows'
      exact absurd hsha hne
    · cases hrows.symm.trans hrows'
      rfl
  obtain ⟨-, -, hmore, -, -⟩ := linkInventoryHash_identifies lawful_standIn hfree
  exact hmore [Sample.fiber0] Sample.lte0 [] (.inl rfl) (.inr rfl)

end Pilotfish
