import Pilotfish.Bundle

/-!
# What the dataplane holds

A mapping is read back from the dataplane, hashed, and checked against the decision class by
class. Its objects are of any type, and what is done with them may raise: they are iterated over,
compared, looked up in a set, shown and encoded.

Results:
1. `get?_of_mem`: what a dict holds under a key.
2. `classComplaint_eq_none`, `postconditionComplaint_eq_empty`: when there is no complaint.
3. `stateHash_returns_iff`, `auditable_iff`: when the hash and the check return.
4. `auditable_declared`: they do for a mapping of the declared type.
-/

namespace Pilotfish
open Python

/-- A mapping as a dict: its keys have hashes, and no two are equal. -/
structure Mapping where
  items : List (Value × Value)
  hashable : ∀ item ∈ items, item.1.hashable = .ok ()
  distinct : items.Pairwise fun p q => q.1.eq p.1 = false

/-- `actual.get(key)`. -/
def Mapping.get? (actual : Mapping) (key : Value) : Option Value :=
  (actual.items.find? fun item => item.1.eq key).map Prod.snd

/-- A dict holds, under the text that is a key of it, the value of that key. -/
theorem Mapping.get?_of_mem {actual : Mapping} {item : Value × Value} (h : item ∈ actual.items)
    {id : String} (hid : item.1 = .str id) : actual.get? (.str id) = some item.2 := by
  obtain ⟨items, hashable, distinct⟩ := actual
  rw [Mapping.get?]
  dsimp only at h ⊢
  induction items with
  | nil => cases h
  | cons p items ih =>
    rw [List.pairwise_cons] at distinct
    rcases List.mem_cons.mp h with rfl | h
    · rw [List.find?_cons_of_pos (by rw [hid]; exact Value.eq_str_iff.mpr rfl)]
      rfl
    · have hother : ¬p.1.eq (.str id) = true := fun heq => by
        have hsame := distinct.1 item h
        rw [hid, Value.eq_str_iff.mp heq] at hsame
        simp [Value.eq] at hsame
      have hskip : (p :: items).find? (fun item => item.1.eq (.str id)) =
          items.find? fun item => item.1.eq (.str id) := List.find?_cons_of_neg hother
      rw [hskip]
      exact ih (fun q hq => hashable q (List.mem_cons_of_mem _ hq)) distinct.2 h

/-- A class with its links in order. -/
def stateRow (item : Value × Value) : Except Exc Value := do
  return .list [item.1, .list (← Value.sorted (← item.2.iter))]

/-- Hash of an observed dataplane state. -/
def stateHash (rt : Runtime) (actual : Mapping) : Except Exc String := do
  rt.hexdigest (.list (← Value.sorted (← actual.items.mapM stateRow)))

/-- `tuple(actual.get(cls.class_id, ()))`. -/
def inForce (actual : Mapping) (classId : String) : Except Exc (List Value) :=
  ((actual.get? (.str classId)).getD (.list [])).iter

theorem inForce_of_mem {actual : Mapping} {id : String} {value : Value}
    (h : (Value.str id, value) ∈ actual.items) : inForce actual id = value.iter := by
  rw [inForce, Mapping.get?_of_mem h rfl]
  rfl

def classComplaint (actual : Mapping) (cls : ClassEligibility) : Except Exc (Option String) := do
  let held ← inForce actual cls.classId
  match ← Value.setMinus held (cls.permitted.map .str) with
  | [] =>
      if held = [] ∧ cls.permitted ≠ [] then
        return some ("class " ++ cls.classId ++ ": decision permitted " ++
          (Value.list (cls.permitted.map .str)).quoted ++ " but the dataplane holds nothing")
      else return none
  -- surplus is complained about first, even where something permitted is missing as well
  | surplus =>
      let inOrder ← Value.sorted surplus
      -- what an object raises that cannot be shown is taken for what such an integer does
      raiseIf (!(Value.list inOrder).printable) Value.digitsLimit
      return some ("class " ++ cls.classId ++ ": dataplane holds " ++ (Value.list inOrder).quoted ++
        ", which policy excluded")

/-- The first complaint about a class of the decision. -/
def postconditionComplaint (actual : Mapping) : List ClassEligibility → Except Exc String
  | [] => return ""
  | cls :: classes => do
      match ← classComplaint actual cls with
      | some complaint => return complaint
      | none => postconditionComplaint actual classes

/-! ## What is hashed -/

/-- A row has the key and the links, in order. -/
theorem stateRow_ok {item : Value × Value} {row : Value} (h : stateRow item = .ok row) :
    ∃ links inOrder, item.2.iter = .ok links ∧ inOrder.Perm links ∧
      row = .list [item.1, .list inOrder] := by
  obtain ⟨links, hlinks, h⟩ := bind_eq_ok_iff.mp h
  obtain ⟨inOrder, hsorted, h⟩ := bind_eq_ok_iff.mp h
  cases h
  exact ⟨links, inOrder, hlinks, Value.sorted_perm hsorted, rfl⟩

theorem stateRow_returns_iff {item : Value × Value} : (∃ row, stateRow item = .ok row) ↔
    ∃ links, item.2.iter = .ok links ∧ Value.Comparable links := by
  simp only [stateRow, bind_eq_ok_iff, ← Value.sorted_returns_iff]
  constructor
  · rintro ⟨_, links, hlinks, inOrder, hsorted, -⟩
    exact ⟨links, hlinks, inOrder, hsorted⟩
  · rintro ⟨links, hlinks, inOrder, hsorted⟩
    exact ⟨_, links, hlinks, inOrder, hsorted, rfl⟩

/-- A key and its links can be encoded. -/
def Encoded (rt : Runtime) (item : Value × Value) : Prop :=
  rt.Encodes item.1 ∧ ∀ links, item.2.iter = .ok links → ∀ link ∈ links, rt.Encodes link

theorem encodes_row {rt : Runtime} (laws : rt.Lawful) {item : Value × Value} {row : Value}
    (h : stateRow item = .ok row) : rt.Encodes row ↔ Encoded rt item := by
  obtain ⟨links, inOrder, hlinks, hperm, rfl⟩ := stateRow_ok h
  simp only [laws.encodes_list, List.forall_mem_cons, List.not_mem_nil, false_imp_iff, implies_true,
    and_true, Encoded, hlinks, Except.ok.injEq, forall_eq', hperm.mem_iff]

theorem encodes_rows {rt : Runtime} (laws : rt.Lawful) {items : List (Value × Value)}
    {rows : List Value} (h : List.Forall₂ (fun item row => stateRow item = .ok row) items rows) :
    (∀ row ∈ rows, rt.Encodes row) ↔ ∀ item ∈ items, Encoded rt item := by
  induction h with
  | nil => simp
  | cons hrow _ ih => rw [List.forall_mem_cons, List.forall_mem_cons, ih, encodes_row laws hrow]

/-- Rows of different keys compare as their keys do. -/
theorem lt_row {key key' : Value} (h : key'.eq key = false) (links links' : List Value) :
    (Value.list [key', .list links']).lt (.list [key, .list links]) = key'.lt key := by
  simp [Value.lt, Value.lt.lts, h]

theorem comparable_rows {items : List (Value × Value)} {rows : List Value}
    (hrows : List.Forall₂ (fun item row => stateRow item = .ok row) items rows)
    (distinct : items.Pairwise fun p q => q.1.eq p.1 = false) :
    Value.Comparable rows ↔ Value.Comparable (items.map Prod.fst) := by
  induction hrows with
  | nil => exact iff_of_true .nil .nil
  | @cons item row items rows hrow hrows ih =>
    obtain ⟨-, links, -, -, rfl⟩ := stateRow_ok hrow
    rw [List.pairwise_cons] at distinct
    rw [Value.Comparable, Value.Comparable, List.map_cons, List.pairwise_cons, List.pairwise_cons]
    refine and_congr ?_ (ih distinct.2)
    rw [List.forall_mem_map]
    have hlt := distinct.1
    clear ih distinct
    -- a second induction: the first row against each of the rest
    induction hrows with
    | nil => simp
    | @cons item' row' items' rows' hrow' _ ih =>
      obtain ⟨-, links', -, -, rfl⟩ := stateRow_ok hrow'
      rw [List.forall_mem_cons] at hlt
      rw [List.forall_mem_cons, List.forall_mem_cons, lt_row hlt.1]
      exact and_congr_right fun _ => ih hlt.2

/-- The hash is returned when the links of each class compare, and the classes do, and all of them
can be encoded. -/
theorem stateHash_returns_iff {rt : Runtime} (laws : rt.Lawful) {actual : Mapping} :
    (∃ h, stateHash rt actual = .ok h) ↔
    ((∀ item ∈ actual.items, ∃ links, item.2.iter = .ok links ∧ Value.Comparable links) ∧
      Value.Comparable (actual.items.map Prod.fst)) ∧ ∀ item ∈ actual.items, Encoded rt item := by
  rw [← forall₂_congr fun _ _ => stateRow_returns_iff, ← mapM_returns_iff]
  simp only [stateHash, bind_eq_ok_iff, Runtime.hexdigest_eq_ok_iff]
  -- the rows in order are those of the items
  have hencodes {rows inOrder : List Value} (hrows : actual.items.mapM stateRow = .ok rows)
      (hsorted : Value.sorted rows = .ok inOrder) :
      rt.Encodes (.list inOrder) ↔ ∀ item ∈ actual.items, Encoded rt item := by
    rw [laws.encodes_list, ← encodes_rows laws (mapM_eq_ok_iff.mp hrows)]
    exact forall_congr' fun _ => by rw [(Value.sorted_perm hsorted).mem_iff]
  constructor
  · rintro ⟨_, rows, hrows, inOrder, hsorted, hencodes', -⟩
    exact ⟨⟨⟨rows, hrows⟩, (comparable_rows (mapM_eq_ok_iff.mp hrows) actual.distinct).mp
      (Value.sorted_returns_iff.mp ⟨inOrder, hsorted⟩)⟩, (hencodes hrows hsorted).mp hencodes'⟩
  · rintro ⟨⟨⟨rows, hrows⟩, hkeys⟩, hencoded⟩
    obtain ⟨inOrder, hsorted⟩ := Value.sorted_returns_iff.mpr
      ((comparable_rows (mapM_eq_ok_iff.mp hrows) actual.distinct).mpr hkeys)
    exact ⟨_, rows, hrows, inOrder, hsorted, (hencodes hrows hsorted).mpr hencoded, rfl⟩

/-! ## What is complained about -/

/-- The dataplane holds some of what a class is permitted, and nothing else; nothing at all only
where nothing is permitted. -/
def Conforms (actual : Mapping) (cls : ClassEligibility) : Prop :=
  ∃ held, inForce actual cls.classId = .ok held ∧
    (∀ link ∈ held, ∃ id ∈ cls.permitted, link = .str id) ∧ (cls.permitted ≠ [] → held ≠ [])

theorem forM_hashable_str (ids : List String) :
    (ids.map Value.str).forM Value.hashable = .ok () :=
  Value.forM_hashable.mpr fun v hv => by
    obtain ⟨id, -, rfl⟩ := List.mem_map.mp hv
    rfl

theorem surplus_eq_nil {held : List Value} {ids : List String} :
    Value.setMinus held (ids.map .str) = .ok [] ↔ ∀ link ∈ held, ∃ id ∈ ids, link = .str id := by
  rw [Value.setMinus_eq_nil]
  simp only [List.mem_map, exists_exists_and_eq_and, Value.eq_str_iff]
  refine ⟨fun h => h.2.2, fun h => ⟨Value.forM_hashable.mpr fun v hv => ?_, forM_hashable_str ids, h⟩⟩
  obtain ⟨id, -, rfl⟩ := h v hv
  rfl

theorem classComplaint_eq_none {actual : Mapping} {cls : ClassEligibility} :
    classComplaint actual cls = .ok none ↔ Conforms actual cls := by
  simp only [classComplaint, bind_eq_ok_iff, Conforms, ← surplus_eq_nil]
  refine exists_congr fun held => and_congr_right ?_
  intro _
  constructor
  · rintro ⟨surplus, hsurplus, h⟩
    cases surplus with
    | nil =>
      refine ⟨hsurplus, ?_⟩
      intro hpermitted hheld
      rw [if_pos ⟨hheld, hpermitted⟩] at h
      cases h
    | cons link surplus =>
      obtain ⟨inOrder, -, h⟩ := bind_eq_ok_iff.mp h
      obtain ⟨⟨⟩, -, h⟩ := bind_eq_ok_iff.mp h
      cases h
  · rintro ⟨hsurplus, hheld⟩
    exact ⟨[], hsurplus, if_neg fun h => hheld h.2 h.1⟩

/-- A complaint names the class. -/
theorem complaint_ne_empty {actual : Mapping} {cls : ClassEligibility} {complaint : String}
    (h : classComplaint actual cls = .ok (some complaint)) : complaint ≠ "" := by
  obtain ⟨held, -, h⟩ := bind_eq_ok_iff.mp h
  obtain ⟨surplus, -, h⟩ := bind_eq_ok_iff.mp h
  cases surplus with
  | nil =>
    dsimp only at h
    split_ifs at h
    · cases h
      simp
    · cases h
  | cons link surplus =>
    obtain ⟨inOrder, -, h⟩ := bind_eq_ok_iff.mp h
    obtain ⟨⟨⟩, -, h⟩ := bind_eq_ok_iff.mp h
    cases h
    simp

/-- Without a complaint every class conforms. -/
theorem postconditionComplaint_eq_empty {actual : Mapping} {classes : List ClassEligibility} :
    postconditionComplaint actual classes = .ok "" ↔ ∀ cls ∈ classes, Conforms actual cls := by
  induction classes with
  | nil => simp [postconditionComplaint, pure, Except.pure]
  | cons cls classes ih =>
    rw [List.forall_mem_cons, ← ih, ← classComplaint_eq_none, postconditionComplaint,
      bind_eq_ok_iff]
    constructor
    · rintro ⟨_ | complaint, hcomplaint, h⟩
      · exact ⟨hcomplaint, h⟩
      · cases h
        exact absurd rfl (complaint_ne_empty hcomplaint)
    · rintro ⟨hcomplaint, h⟩
      exact ⟨none, hcomplaint, h⟩

/-! ## When the check returns -/

/-- The links of a class have hashes, and the set of them can be shown. -/
def Hashed (actual : Mapping) (cls : ClassEligibility) : Prop :=
  ∃ held, inForce actual cls.classId = .ok held ∧ (∀ link ∈ held, link.hashable = .ok ()) ∧
    ∀ link ∈ Value.distinct held, link.printable = true

/-- The links have hashes, and can be shown, in every class up to the first that does not
conform. -/
def Checkable (actual : Mapping) : List ClassEligibility → Prop
  | [] => True
  | cls :: classes => Hashed actual cls ∧ (Conforms actual cls → Checkable actual classes)

/-- What was read back can be hashed and checked. -/
structure Auditable (rt : Runtime) (actual : Mapping) (classes : List ClassEligibility) : Prop where
  links : ∀ item ∈ actual.items, ∃ links, item.2.iter = .ok links ∧ Value.Comparable links
  keys : Value.Comparable (actual.items.map Prod.fst)
  encoded : ∀ item ∈ actual.items, Encoded rt item
  check : Checkable actual classes

theorem inForce_comparable {actual : Mapping}
    (h : ∀ item ∈ actual.items, ∃ links, item.2.iter = .ok links ∧ Value.Comparable links)
    (classId : String) : ∃ held, inForce actual classId = .ok held ∧ Value.Comparable held := by
  rw [inForce, Mapping.get?]
  cases hfind : actual.items.find? fun item => item.1.eq (.str classId) with
  | none => exact ⟨[], rfl, .nil⟩
  | some item => exact h item (List.mem_of_find?_eq_some hfind)

/-- Links that are permitted are texts, so what can be shown of the set can be of the surplus. -/
theorem printable_surplus (held : List Value) (ids : List String) :
    (Value.distinct (held.filter fun x => !(ids.map Value.str).any fun y => x.eq y)).all
      Value.printable = true ↔ ∀ link ∈ Value.distinct held, link.printable = true := by
  have hpermitted (x : Value) : ((ids.map Value.str).any fun y => x.eq y) = true ↔
      ∃ id ∈ ids, x = .str id := by simp
  have heq (x y : Value) (hxy : y.eq x = true) :
      (!(ids.map Value.str).any fun z => y.eq z) = !(ids.map Value.str).any fun z => x.eq z := by
    rw [Bool.not_inj_iff, Bool.eq_iff_iff, hpermitted, hpermitted]
    refine exists_congr fun id => and_congr_right fun _ => ⟨?_, ?_⟩
    · rintro rfl
      exact Value.str_eq_iff.mp hxy
    · rintro rfl
      exact Value.eq_str_iff.mp hxy
  rw [Value.distinct_filter heq, List.all_eq_true]
  constructor
  · intro h link hlink
    by_cases hid : ∃ id ∈ ids, link = .str id
    · obtain ⟨id, -, rfl⟩ := hid
      rfl
    · refine h link (List.mem_filter.mpr ⟨hlink, ?_⟩)
      rw [Bool.not_eq_true', ← Bool.not_eq_true, hpermitted]
      exact hid
  · exact fun h link hlink => h link (List.mem_of_mem_filter hlink)

/-- The complaint about a class whose links compare is found when they have hashes and can be
shown. -/
theorem classComplaint_returns_iff {actual : Mapping} {cls : ClassEligibility} {held : List Value}
    (hheld : inForce actual cls.classId = .ok held) (hcomparable : Value.Comparable held) :
    (∃ complaint, classComplaint actual cls = .ok complaint) ↔ Hashed actual cls := by
  have hashed : Hashed actual cls ↔ held.forM Value.hashable = .ok () ∧
      ∀ link ∈ Value.distinct held, link.printable = true := by
    rw [Value.forM_hashable, Hashed, hheld]
    simp
  simp only [hashed, classComplaint, bind_eq_ok_iff, hheld, Except.ok.injEq, exists_eq_left',
    ← printable_surplus held cls.permitted]
  let surplus := Value.distinct
    (held.filter fun x => !(cls.permitted.map Value.str).any fun y => x.eq y)
  have hsurplus (h : held.forM Value.hashable = .ok ()) :
      Value.setMinus held (cls.permitted.map .str) = .ok surplus :=
    bind_eq_ok_iff.mpr ⟨(), h, bind_eq_ok_iff.mpr ⟨(), forM_hashable_str _, rfl⟩⟩
  obtain ⟨inOrder, hsorted⟩ := Value.sorted_returns_iff.mpr
    (hcomparable.sublist ((Value.distinct_sublist _).trans List.filter_sublist) :
      Value.Comparable surplus)
  have hshown : (Value.list inOrder).printable = surplus.all Value.printable := by
    rw [Value.printable_list]
    exact (Value.sorted_perm hsorted).all_eq
  show _ ↔ _ ∧ surplus.all Value.printable = true
  rw [← hshown]
  constructor
  · rintro ⟨complaint, found, hfound, hrest⟩
    obtain ⟨⟨⟩, h, -⟩ := bind_eq_ok_iff.mp hfound
    obtain rfl : surplus = found := Except.ok.inj ((hsurplus h).symm.trans hfound)
    refine ⟨h, ?_⟩
    generalize surplus = surplus at hsorted hrest
    cases surplus with
    | nil =>
      cases hsorted
      rfl
    | cons link surplus =>
      obtain ⟨inOrder', hsorted', hrest⟩ := bind_eq_ok_iff.mp hrest
      cases hsorted.symm.trans hsorted'
      obtain ⟨⟨⟩, hprintable, -⟩ := bind_eq_ok_iff.mp hrest
      simpa using hprintable
  · rintro ⟨h, hprintable⟩
    rw [hsurplus h]
    generalize surplus = surplus at hsorted
    cases surplus with
    | nil =>
      by_cases hnothing : held = [] ∧ cls.permitted ≠ []
      · exact ⟨_, [], rfl, if_pos hnothing⟩
      · exact ⟨_, [], rfl, if_neg hnothing⟩
    | cons link surplus =>
      refine ⟨_, _, rfl, bind_eq_ok_iff.mpr ⟨inOrder, hsorted, bind_eq_ok_iff.mpr ⟨(), ?_, rfl⟩⟩⟩
      rw [hprintable]
      rfl

theorem postconditionComplaint_returns_iff {actual : Mapping}
    (h : ∀ item ∈ actual.items, ∃ links, item.2.iter = .ok links ∧ Value.Comparable links)
    {classes : List ClassEligibility} :
    (∃ complaint, postconditionComplaint actual classes = .ok complaint) ↔
    Checkable actual classes := by
  induction classes with
  | nil => exact iff_of_true ⟨_, rfl⟩ trivial
  | cons cls classes ih =>
    obtain ⟨held, hheld, hcomparable⟩ := inForce_comparable h cls.classId
    rw [Checkable, ← classComplaint_returns_iff hheld hcomparable, ← classComplaint_eq_none, ← ih]
    simp only [postconditionComplaint, bind_eq_ok_iff]
    constructor
    · rintro ⟨complaint, found, hfound, hrest⟩
      refine ⟨⟨found, hfound⟩, ?_⟩
      intro hnone
      obtain rfl : found = none := Except.ok.inj (hfound.symm.trans hnone)
      exact ⟨complaint, hrest⟩
    · rintro ⟨⟨_ | complaint, hfound⟩, hrest⟩
      · obtain ⟨complaint, hcomplaint⟩ := hrest hfound
        exact ⟨complaint, none, hfound, hcomplaint⟩
      · exact ⟨complaint, some complaint, hfound, rfl⟩

theorem auditable_iff {rt : Runtime} (laws : rt.Lawful) {actual : Mapping}
    {classes : List ClassEligibility} : Auditable rt actual classes ↔
      (∃ complaint, postconditionComplaint actual classes = .ok complaint) ∧
        ∃ h, stateHash rt actual = .ok h := by
  rw [stateHash_returns_iff laws]
  constructor
  · rintro ⟨links, keys, encoded, check⟩
    exact ⟨(postconditionComplaint_returns_iff links).mpr check, ⟨links, keys⟩, encoded⟩
  · rintro ⟨check, ⟨links, keys⟩, encoded⟩
    exact ⟨links, keys, encoded, (postconditionComplaint_returns_iff links).mp check⟩

/-! ## Mappings of the declared type -/

/-- Texts to tuples of texts. -/
def Mapping.Declared (actual : Mapping) : Prop :=
  ∀ item ∈ actual.items, (∃ id : String, item.1 = .str id) ∧
    ∃ ids : List String, item.2 = .list (ids.map .str)

theorem comparable_str {xs : List Value} (h : ∀ x ∈ xs, ∃ s : String, x = .str s) :
    Value.Comparable xs :=
  List.pairwise_of_forall_mem_list fun x hx y hy => by
    obtain ⟨a, rfl⟩ := h x hx
    obtain ⟨b, rfl⟩ := h y hy
    exact ⟨_, rfl⟩

theorem inForce_declared {actual : Mapping} (h : actual.Declared) (classId : String) :
    ∃ ids : List String, inForce actual classId = .ok (ids.map .str) := by
  rw [inForce, Mapping.get?]
  cases hfind : actual.items.find? fun item => item.1.eq (.str classId) with
  | none => exact ⟨[], rfl⟩
  | some item =>
    obtain ⟨ids, hids⟩ := (h item (List.mem_of_find?_eq_some hfind)).2
    exact ⟨ids, by rw [Option.map_some, Option.getD_some, hids]; rfl⟩

theorem auditable_declared (rt : Runtime) {actual : Mapping} (h : actual.Declared)
    (classes : List ClassEligibility) : Auditable rt actual classes where
  links := fun item hitem => by
    obtain ⟨ids, hids⟩ := (h item hitem).2
    exact ⟨ids.map .str, by rw [hids]; rfl, comparable_str (by simp)⟩
  keys := comparable_str fun key hkey => by
    obtain ⟨item, hitem, rfl⟩ := List.mem_map.mp hkey
    exact (h item hitem).1
  encoded := fun item hitem => by
    obtain ⟨⟨id, hid⟩, ids, hids⟩ := h item hitem
    refine ⟨hid ▸ rt.dumps_plain _ rfl, ?_⟩
    rw [hids]
    rintro _ ⟨⟩ link hlink
    obtain ⟨id, -, rfl⟩ := List.mem_map.mp hlink
    exact rt.dumps_plain _ rfl
  check := by
    induction classes with
    | nil => trivial
    | cons cls classes ih =>
      obtain ⟨ids, hids⟩ := inForce_declared h cls.classId
      refine ⟨⟨_, hids, Value.forM_hashable.mp (forM_hashable_str ids), ?_⟩, fun _ => ih⟩
      intro link hlink
      obtain ⟨id, -, rfl⟩ := List.mem_map.mp ((Value.distinct_sublist _).subset hlink)
      rfl

/-- A dict of tuples of texts, one entry for each class. -/
def Mapping.ofRows (rows : List (String × List String))
    (h : (rows.map Prod.fst).Nodup := by decide) : Mapping where
  items := rows.map fun row => (.str row.1, .list (row.2.map .str))
  hashable := by
    intro item hitem
    obtain ⟨row, -, rfl⟩ := List.mem_map.mp hitem
    rfl
  distinct := by
    rw [List.pairwise_map]
    exact (List.pairwise_map.mp h).imp fun hne => by simpa [Value.eq] using hne.symm

section Rows
variable {rows : List (String × List String)} {h : (rows.map Prod.fst).Nodup}

theorem declared_ofRows : (Mapping.ofRows rows h).Declared := fun item hitem => by
  obtain ⟨row, -, rfl⟩ := List.mem_map.mp hitem
  exact ⟨⟨row.1, rfl⟩, row.2, rfl⟩

/-- A class that is reported with what it is permitted conforms. -/
theorem conforms_ofRows {cls : ClassEligibility} (hmem : (cls.classId, cls.permitted) ∈ rows) :
    Conforms (Mapping.ofRows rows h) cls := by
  have hitem : (Value.str cls.classId, Value.list (cls.permitted.map .str)) ∈
      (Mapping.ofRows rows h).items := List.mem_map.mpr ⟨_, hmem, rfl⟩
  refine ⟨cls.permitted.map .str, (inForce_of_mem hitem).trans rfl, fun link hlink => ?_, by simp⟩
  obtain ⟨id, hid, rfl⟩ := List.mem_map.mp hlink
  exact ⟨id, hid, rfl⟩

end Rows

/-! ## A dataplane that reports what it was told -/

/-- `rows[key] = value`. -/
def setItem (key : String) (value : List String) :
    List (String × List String) → List (String × List String)
  | [] => [(key, value)]
  | row :: rows => if row.1 = key then (key, value) :: rows else row :: setItem key value rows

theorem keys_setItem (key : String) (value : List String) (rows : List (String × List String)) :
    (setItem key value rows).map Prod.fst =
      if key ∈ rows.map Prod.fst then rows.map Prod.fst else rows.map Prod.fst ++ [key] := by
  induction rows with
  | nil => rfl
  | cons row rows ih =>
    by_cases hkey : row.1 = key
    · simp [setItem, hkey]
    · rw [setItem, if_neg hkey, List.map_cons, ih]
      split_ifs with hold hnew hnew <;> simp_all

theorem setItem_of_notMem {key : String} {rows : List (String × List String)}
    (h : key ∉ rows.map Prod.fst) (value : List String) :
    setItem key value rows = rows ++ [(key, value)] := by
  induction rows with
  | nil => rfl
  | cons row rows ih =>
    rw [List.map_cons, List.mem_cons, not_or] at h
    rw [setItem, if_neg (Ne.symm h.1), ih h.2, List.cons_append]

namespace NoopDataplane

/-- `{cls.class_id: cls.permitted for cls in decision.classes}`. -/
def state (classes : List ClassEligibility) : List (String × List String) :=
  classes.foldl (fun rows cls => setItem cls.classId cls.permitted rows) []

theorem nodup_state (classes : List ClassEligibility) : ((state classes).map Prod.fst).Nodup := by
  suffices h : ∀ rows : List (String × List String), (rows.map Prod.fst).Nodup →
      ((classes.foldl (fun rows cls => setItem cls.classId cls.permitted rows) rows).map
        Prod.fst).Nodup from h [] .nil
  induction classes with
  | nil => exact fun _ h => h
  | cons cls classes ih =>
    intro rows h
    refine ih _ ?_
    rw [keys_setItem]
    split_ifs with hmem
    · exact h
    · refine List.nodup_append.mpr ⟨h, by simp, ?_⟩
      intro id hid key hkey
      rintro rfl
      exact hmem (List.mem_singleton.mp hkey ▸ hid)

def readback (classes : List ClassEligibility) : Mapping :=
  .ofRows (state classes) (nodup_state classes)

/-- Where no two classes have one id, each is reported as it is. -/
theorem state_of_nodup {classes : List ClassEligibility} (h : (classes.map (·.classId)).Nodup) :
    state classes = classes.map fun cls => (cls.classId, cls.permitted) := by
  suffices hrows : ∀ rows : List (String × List String),
      (rows.map Prod.fst ++ classes.map (·.classId)).Nodup →
      classes.foldl (fun rows cls => setItem cls.classId cls.permitted rows) rows =
        rows ++ classes.map fun cls => (cls.classId, cls.permitted) from hrows [] h
  clear h
  induction classes with
  | nil => simp
  | cons cls classes ih =>
    intro rows h
    have hnew : cls.classId ∉ rows.map Prod.fst := fun hmem =>
      (List.nodup_append.mp h).2.2 _ hmem _ List.mem_cons_self rfl
    rw [List.foldl_cons, setItem_of_notMem hnew, ih, List.map_cons, List.append_assoc]
    · rfl
    · simpa using h

theorem conforms_readback {classes : List ClassEligibility} (h : (classes.map (·.classId)).Nodup) :
    ∀ cls ∈ classes, Conforms (readback classes) cls := fun cls hcls =>
  conforms_ofRows (by
    rw [state_of_nodup h]
    exact List.mem_map_of_mem hcls)

end NoopDataplane

end Pilotfish
