import Mathlib.Data.List.Nodup

/-!
# Dicts

A dict lists its items in the order of their first insertion, each key once. Setting a key that is
there replaces the value in its place.

Results:
1. `get?_eq_some`: what is found under a key is its item.
2. `ofEntries_items`: entries with distinct keys are the items of the dict that is built of them.
3. `map_modify`, `map_modify_unseen`: a change under a key, as a view of the values shows it.
-/

/-- Items in order, each key once. -/
structure Dict (κ α : Type) where
  items : List (κ × α)
  distinct : (items.map Prod.fst).Nodup

namespace Dict

variable {κ α : Type} [DecidableEq κ]

def empty : Dict κ α := ⟨[], List.nodup_nil⟩

def keys (d : Dict κ α) : List κ := d.items.map Prod.fst

/-- `d.get(k)`. -/
def get? (d : Dict κ α) (k : κ) : Option α := d.items.lookup k

/-! ## Changing what is under a key -/

/-- The values under a key are changed in their place. -/
def modifyItems (k : κ) (f : α → α) (items : List (κ × α)) : List (κ × α) :=
  items.map fun item => (item.1, if item.1 = k then f item.2 else item.2)

theorem keys_modifyItems (k : κ) (f : α → α) (items : List (κ × α)) :
    (modifyItems k f items).map Prod.fst = items.map Prod.fst := by
  rw [modifyItems, List.map_map]
  rfl

/-- Change the value under a key, if there is one. -/
def modify (d : Dict κ α) (k : κ) (f : α → α) : Dict κ α :=
  ⟨modifyItems k f d.items, by rw [keys_modifyItems]; exact d.distinct⟩

@[simp] theorem keys_modify (d : Dict κ α) (k : κ) (f : α → α) : (d.modify k f).keys = d.keys :=
  keys_modifyItems k f d.items

/-- Change every value. -/
def map {β : Type} (f : α → β) (d : Dict κ α) : Dict κ β :=
  ⟨d.items.map fun item => (item.1, f item.2), by
    rw [List.map_map]
    exact d.distinct⟩

omit [DecidableEq κ] in
@[simp] theorem items_map {β : Type} (f : α → β) (d : Dict κ α) :
    (d.map f).items = d.items.map fun item => (item.1, f item.2) := rfl

theorem map_modifyItems {β : Type} {f : α → α} {f' : β → β} {g : α → β}
    (h : ∀ v, g (f v) = f' (g v)) (k : κ) (items : List (κ × α)) :
    (modifyItems k f items).map (fun item => (item.1, g item.2)) =
      modifyItems k f' (items.map fun item => (item.1, g item.2)) := by
  unfold modifyItems
  rw [List.map_map, List.map_map]
  refine List.map_congr_left ?_
  intro item _
  by_cases hkey : item.1 = k
  · simp [hkey, h]
  · simp [hkey]

omit [DecidableEq κ] in
theorem ext_items {d d' : Dict κ α} (h : d.items = d'.items) : d = d' := by
  obtain ⟨items, distinct⟩ := d
  subst h
  rfl

/-- A change and a change of every value in which it is seen go together. -/
theorem map_modify {β : Type} {f : α → α} {f' : β → β} {g : α → β} (h : ∀ v, g (f v) = f' (g v))
    (d : Dict κ α) (k : κ) : (d.modify k f).map g = (d.map g).modify k f' :=
  ext_items (map_modifyItems h k d.items)

/-- A change that is not seen in any value leaves what is seen. -/
theorem map_modify_unseen {β : Type} {f : α → α} {g : α → β} (h : ∀ v, g (f v) = g v)
    (d : Dict κ α) (k : κ) : (d.modify k f).map g = d.map g := by
  refine ext_items ((List.map_map ..).trans (List.map_congr_left ?_))
  intro item _
  by_cases hkey : item.1 = k
  · simp [hkey, h]
  · simp [hkey]

theorem lookup_map {β : Type} (f : α → β) (items : List (κ × α)) (k : κ) :
    (items.map fun item => (item.1, f item.2)).lookup k = (items.lookup k).map f := by
  induction items with
  | nil => rfl
  | cons item items ih =>
    obtain ⟨key, v⟩ := item
    rw [List.map_cons, List.lookup_cons, List.lookup_cons, ih]
    by_cases hkey : k = key
    · simp [hkey]
    · rw [beq_false_of_ne hkey]

theorem get?_map {β : Type} (f : α → β) (d : Dict κ α) (k : κ) :
    (d.map f).get? k = (d.get? k).map f := lookup_map f d.items k

/-! ## Looking up -/

theorem get?_eq_some {d : Dict κ α} {k : κ} {v : α} : d.get? k = some v ↔ (k, v) ∈ d.items := by
  constructor
  · intro h
    obtain ⟨before, after, hsplit, -⟩ := List.lookup_eq_some_iff.mp h
    rw [hsplit]
    simp
  · intro h
    cases hget : d.get? k with
    | none =>
      have hmissing := List.lookup_eq_none_iff.mp hget (k, v) h
      simp at hmissing
    | some w =>
      obtain ⟨before, after, hsplit, -⟩ := List.lookup_eq_some_iff.mp hget
      have hw : (k, w) ∈ d.items := by
        rw [hsplit]
        simp
      have hsame := List.inj_on_of_nodup_map d.distinct hw h rfl
      exact congrArg (some ·.2) hsame

/-! ## Building one -/

/-- `d[k] = v`. -/
def set (d : Dict κ α) (k : κ) (v : α) : Dict κ α :=
  if h : k ∈ d.keys then d.modify k fun _ => v
  else ⟨d.items ++ [(k, v)], by
    rw [List.map_append, List.map_singleton, List.nodup_append]
    refine ⟨d.distinct, List.nodup_singleton k, ?_⟩
    intro a ha b hb hab
    rw [hab, List.mem_singleton.mp hb] at ha
    exact h ha⟩

/-- `{k: v for k, v in entries}`. -/
def ofEntries (entries : List (κ × α)) : Dict κ α :=
  entries.foldl (fun d entry => d.set entry.1 entry.2) empty

theorem items_foldl_set {entries : List (κ × α)} {d : Dict κ α}
    (h : (d.keys ++ entries.map Prod.fst).Nodup) :
    (entries.foldl (fun d entry => d.set entry.1 entry.2) d).items = d.items ++ entries := by
  induction entries generalizing d with
  | nil => simp
  | cons entry entries ih =>
    have hnew : entry.1 ∉ d.keys := by
      intro hmem
      exact (List.nodup_append.mp h).2.2 entry.1 hmem entry.1 (by simp) rfl
    have hset : (d.set entry.1 entry.2).items = d.items ++ [entry] := by
      rw [set, dif_neg hnew]
    rw [List.foldl_cons, ih]
    · rw [hset, List.append_assoc]
      rfl
    · rw [keys, hset, List.map_append, List.append_assoc]
      exact h

theorem ofEntries_items {entries : List (κ × α)} (h : (entries.map Prod.fst).Nodup) :
    (ofEntries entries).items = entries := by
  rw [ofEntries, items_foldl_set]
  · rfl
  · exact h

end Dict
