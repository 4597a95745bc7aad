import Mathlib.Data.List.AList
import Mathlib.Data.List.Dedup
import Mathlib.Data.List.Induction

/-! Python dictionaries with insertion order, over Mathlib's `AList`.
The head of the entry list is the most recently inserted key, so
`popitem(last=False)` removes the last entry. Assigning to a key that is
already present keeps its position, as Python does. -/

namespace TrajProxy

/-- Keys are unique by construction: `AList` carries the proof. -/
abbrev OrderedDict (κ ν : Type) := AList fun _ : κ => ν

namespace OrderedDict

variable {κ ν : Type} [DecidableEq κ]

/-- `d.get(key)` -/
def get (d : OrderedDict κ ν) (k : κ) : Option ν := d.lookup k

/-- `d[key] = value` -/
def setItem (d : OrderedDict κ ν) (k : κ) (v : ν) : OrderedDict κ ν :=
  if k ∈ d then d.replace k v else d.insert k v

/-- The dictionary left by `d.pop(key, None)`. -/
def pop (d : OrderedDict κ ν) (k : κ) : OrderedDict κ ν := d.erase k

/-- `d.move_to_end(key)`, for a key that may be absent. -/
def moveToEnd (d : OrderedDict κ ν) (k : κ) : OrderedDict κ ν :=
  match d.get k with
  | some v => d.insert k v
  | none => d

/-- The oldest entry, which `d.popitem(last=False)` removes. -/
def first (d : OrderedDict κ ν) : Option (κ × ν) :=
  d.entries.getLast?.map fun e => (e.1, e.2)

/-- `len(d)` -/
def size (d : OrderedDict κ ν) : Nat := d.entries.length

/-- `list(d.values())` -/
def values (d : OrderedDict κ ν) : List ν := (d.entries.map fun e => e.2).reverse

/-- `sum(p(v) for v in d.values())` -/
def countValues (p : ν → Bool) (d : OrderedDict κ ν) : Nat := d.entries.countP fun e => p e.2

/-- `d[key(a)] = update(d.get(key(a)), a)` -/
def updateItem {α : Type} (key : α → κ) (update : Option ν → α → ν) (d : OrderedDict κ ν) (a : α) :
    OrderedDict κ ν :=
  d.setItem (key a) (update (d.get (key a)) a)

@[simp] theorem get_empty (k : κ) : get (∅ : OrderedDict κ ν) k = none :=
  AList.lookup_empty k

theorem get_eq_none {d : OrderedDict κ ν} {k : κ} : d.get k = none ↔ k ∉ d :=
  AList.lookup_eq_none

private theorem dlookup_kreplace (l : List (Σ _ : κ, ν)) (k k' : κ) (v : ν)
    (h : k ∈ l.keys) : (l.kreplace k v).dlookup k' = if k' = k then some v else l.dlookup k' := by
  induction l with
  | nil => simp at h
  | cons e l ih =>
    obtain ⟨a, b⟩ := e
    by_cases ha : k = a
    · subst ha
      by_cases hk : k' = k
      · subst hk
        simp [List.kreplace, List.lookmap_cons_some]
      · simp [List.kreplace, List.lookmap_cons_some, hk, List.dlookup_cons_ne]
    · have tail : k ∈ l.keys := by simpa [List.keys, ha] using h
      have step : (⟨a, b⟩ :: l : List (Σ _ : κ, ν)).kreplace k v = ⟨a, b⟩ :: l.kreplace k v := by
        simp [List.kreplace, List.lookmap_cons_none, ha]
      rw [step]
      by_cases hk : k' = a
      · subst hk
        simp [Ne.symm ha]
      · rw [List.dlookup_cons_ne _ _ hk, List.dlookup_cons_ne _ _ hk, ih tail]

theorem get_setItem (d : OrderedDict κ ν) (k k' : κ) (v : ν) :
    (d.setItem k v).get k' = if k' = k then some v else d.get k' := by
  unfold setItem get
  split_ifs with present eq eq
  · subst eq
    simpa [AList.lookup, AList.replace] using
      dlookup_kreplace d.entries k' k' v present
  · simpa [AList.lookup, AList.replace, eq] using
      dlookup_kreplace d.entries k k' v present
  · rw [eq, AList.lookup_insert]
  · exact AList.lookup_insert_ne eq

@[simp] theorem get_setItem_self (d : OrderedDict κ ν) (k : κ) (v : ν) :
    (d.setItem k v).get k = some v := by simp [get_setItem]

theorem get_setItem_ne (d : OrderedDict κ ν) {k k' : κ} (v : ν) (h : k' ≠ k) :
    (d.setItem k v).get k' = d.get k' := by simp [get_setItem, h]

theorem get_pop (d : OrderedDict κ ν) (k k' : κ) :
    (d.pop k).get k' = if k' = k then none else d.get k' := by
  unfold pop get
  split_ifs with eq
  · rw [eq, AList.lookup_erase]
  · exact AList.lookup_erase_ne eq

@[simp] theorem get_pop_self (d : OrderedDict κ ν) (k : κ) : (d.pop k).get k = none := by
  simp [get_pop]

@[simp] theorem get_moveToEnd (d : OrderedDict κ ν) (k k' : κ) :
    (d.moveToEnd k).get k' = d.get k' := by
  unfold moveToEnd
  split
  · rename_i v present
    by_cases eq : k' = k
    · rw [eq, present]
      exact AList.lookup_insert d
    · exact AList.lookup_insert_ne eq
  · rfl

private theorem filterMap_dlookup (l : List (Σ _ : κ, ν)) (h : l.NodupKeys) :
    l.keys.filterMap l.dlookup = l.map fun e => e.2 := by
  induction l with
  | nil => rfl
  | cons e l ih =>
    obtain ⟨a, b⟩ := e
    obtain ⟨hnotMem, hl⟩ := List.nodupKeys_cons.mp h
    have tail : l.keys.filterMap (List.dlookup · (⟨a, b⟩ :: l)) = l.keys.filterMap l.dlookup := by
      apply List.filterMap_congr
      intro k hk
      exact List.dlookup_cons_ne l ⟨a, b⟩ fun heq => hnotMem (heq ▸ hk)
    have head : List.dlookup a (⟨a, b⟩ :: l) = some b := List.dlookup_cons_eq l a b
    rw [List.keys_cons, List.filterMap_cons, head, List.map_cons]
    exact congrArg (b :: ·) (tail.trans (ih hl))

theorem values_eq (d : OrderedDict κ ν) : values d = d.keys.reverse.filterMap d.get := by
  rw [values, List.filterMap_reverse]
  exact congrArg List.reverse (filterMap_dlookup d.entries d.nodupKeys).symm

theorem keys_setItem (d : OrderedDict κ ν) (k : κ) (v : ν) :
    (d.setItem k v).keys = if k ∈ d.keys then d.keys else k :: d.keys := by
  unfold setItem
  by_cases hk : k ∈ d
  · rw [if_pos hk, if_pos (AList.mem_keys.mp hk)]
    exact AList.keys_replace k v d
  · have hkeys : k ∉ d.keys := fun h => hk (AList.mem_keys.mpr h)
    rw [if_neg hk, if_neg hkeys]
    rw [AList.keys_insert, List.erase_of_not_mem hkeys]

theorem mem_setItem (d : OrderedDict κ ν) (k k' : κ) (v : ν) :
    k' ∈ d.setItem k v ↔ k' = k ∨ k' ∈ d := by
  rw [AList.mem_keys, AList.mem_keys, keys_setItem]
  split_ifs with present
  · constructor
    · exact Or.inr
    · rintro (rfl | old)
      · exact present
      · exact old
  · exact List.mem_cons

theorem mem_pop (d : OrderedDict κ ν) (k k' : κ) : k' ∈ d.pop k ↔ k' ≠ k ∧ k' ∈ d :=
  AList.mem_erase

theorem mem_moveToEnd (d : OrderedDict κ ν) (k k' : κ) : k' ∈ d.moveToEnd k ↔ k' ∈ d := by
  rw [← not_iff_not, ← get_eq_none, get_moveToEnd, get_eq_none]

theorem keys_pop_sublist (d : OrderedDict κ ν) (k : κ) : (d.pop k).keys.Sublist d.keys :=
  (List.kerase_sublist k d.entries).map _

theorem keys_moveToEnd {d : OrderedDict κ ν} {k : κ} (mem : k ∈ d) :
    ∃ rest, (d.moveToEnd k).keys = k :: rest ∧ rest.Sublist d.keys := by
  unfold moveToEnd
  split
  · exact ⟨_, AList.keys_insert d, List.erase_sublist⟩
  · rename_i absent
    exact absurd mem (get_eq_none.mp absent)

omit [DecidableEq κ] in
theorem size_eq (d : OrderedDict κ ν) : size d = d.keys.length :=
  (List.length_map ..).symm

theorem size_setItem_le (d : OrderedDict κ ν) (k : κ) (v : ν) :
    size (d.setItem k v) ≤ size d + 1 := by
  rw [size_eq, size_eq, keys_setItem]
  split_ifs
  · omega
  · exact le_of_eq (List.length_cons ..)

theorem size_pop (d : OrderedDict κ ν) (k : κ) :
    size (d.pop k) = if k ∈ d then size d - 1 else size d := by
  rw [size_eq, size_eq, pop, AList.keys_erase, List.length_erase]
  simp only [AList.mem_keys]

theorem size_moveToEnd (d : OrderedDict κ ν) (k : κ) : size (d.moveToEnd k) = size d := by
  unfold moveToEnd
  split
  · rename_i v present
    have mem : k ∈ d.keys := AList.mem_keys.mp (AList.lookup_isSome.mp (by simp_all [get]))
    rw [size_eq, size_eq, AList.keys_insert, List.length_cons, List.length_erase_of_mem mem]
    have := List.length_pos_of_mem mem
    omega
  · rfl

omit [DecidableEq κ] in
/-- The oldest key is one of the dictionary's, unless that is empty. -/
theorem first_cases (d : OrderedDict κ ν) :
    (d.first = none ∧ size d = 0) ∨ ∃ k v, d.first = some (k, v) ∧ k ∈ d := by
  cases last : d.entries.getLast? with
  | none =>
    rw [List.getLast?_eq_none_iff] at last
    exact Or.inl ⟨by simp [first, last], by simp [size, last]⟩
  | some e =>
    have mem : e.1 ∈ d.keys := List.mem_map_of_mem (List.mem_of_getLast? last)
    exact Or.inr ⟨e.1, e.2, by simp [first, last], AList.mem_keys.mpr mem⟩

theorem pop_of_notMem {d : OrderedDict κ ν} {k : κ} (absent : k ∉ d) : d.pop k = d :=
  AList.ext (List.kerase_of_notMem_keys fun mem => absent (AList.mem_keys.mpr mem))

theorem pop_pop (d : OrderedDict κ ν) (k k' : κ) : (d.pop k).pop k' = (d.pop k').pop k :=
  AList.erase_erase k k' d

private theorem kerase_kreplace (l : List (Σ _ : κ, ν)) {k k' : κ} (v : ν) (other : k' ≠ k) :
    (l.kreplace k v).kerase k' = (l.kerase k').kreplace k v := by
  induction l with
  | nil => rfl
  | cons e l ih =>
    obtain ⟨a, b⟩ := e
    have behind (l : List (Σ _ : κ, ν)) (h : k ≠ a) :
        (⟨a, b⟩ :: l : List (Σ _ : κ, ν)).kreplace k v = ⟨a, b⟩ :: l.kreplace k v := by
      simp [List.kreplace, List.lookmap_cons_none, h]
    have here (l : List (Σ _ : κ, ν)) :
        (⟨k, b⟩ :: l : List (Σ _ : κ, ν)).kreplace k v = ⟨k, v⟩ :: l := by
      simp [List.kreplace, List.lookmap_cons_some]
    by_cases ha : k = a
    · subst ha
      rw [here, List.kerase_cons_ne other, List.kerase_cons_ne other, here]
    · rw [behind l ha]
      by_cases ha' : k' = a
      · rw [List.kerase_cons_eq ha', List.kerase_cons_eq ha']
      · rw [List.kerase_cons_ne ha', List.kerase_cons_ne ha', behind _ ha, ih]

theorem pop_setItem_self {d : OrderedDict κ ν} {k : κ} (v : ν) (absent : k ∉ d) :
    (d.setItem k v).pop k = d := by
  unfold setItem pop
  rw [if_neg absent]
  apply AList.ext
  change (AList.insert k v d).entries.kerase k = d.entries
  rw [AList.entries_insert_of_notMem absent]
  exact List.kerase_cons_eq rfl

/-- Assignments to other keys do not see a key that is taken out later. -/
theorem pop_setItem_ne (d : OrderedDict κ ν) {k k' : κ} (v : ν) (other : k' ≠ k) :
    (d.setItem k v).pop k' = (d.pop k').setItem k v := by
  have same : k ∈ d.pop k' ↔ k ∈ d := by
    rw [mem_pop]
    exact and_iff_right (Ne.symm other)
  unfold setItem
  by_cases present : k ∈ d
  · rw [if_pos present, if_pos (same.mpr present)]
    exact AList.ext (kerase_kreplace d.entries v other)
  · rw [if_neg present, if_neg (fun mem => present (same.mp mem))]
    apply AList.ext
    change (AList.insert k v d).entries.kerase k' = (AList.insert k v (d.pop k')).entries
    rw [AList.entries_insert, AList.entries_insert, List.kerase_cons_ne other]
    exact congrArg (_ :: ·) (List.kerase_comm k k' d.entries)

private theorem filterMap_dlookup_entry (l : List (Σ _ : κ, ν)) (h : l.NodupKeys) :
    l.keys.filterMap (fun k => (l.dlookup k).map (Sigma.mk k)) = l := by
  induction l with
  | nil => rfl
  | cons e l ih =>
    obtain ⟨a, b⟩ := e
    obtain ⟨notMem, rest⟩ := List.nodupKeys_cons.mp h
    have tail : l.keys.filterMap (fun k => (List.dlookup k (⟨a, b⟩ :: l)).map (Sigma.mk k)) =
        l.keys.filterMap (fun k => (l.dlookup k).map (Sigma.mk k)) := by
      apply List.filterMap_congr
      intro k mem
      rw [List.dlookup_cons_ne l ⟨a, b⟩ fun same => notMem (same ▸ mem)]
    have head : List.dlookup a (⟨a, b⟩ :: l) = some b := List.dlookup_cons_eq l a b
    rw [List.keys_cons, List.filterMap_cons, head]
    exact congrArg (⟨a, b⟩ :: ·) (tail.trans (ih rest))

/-- Two dictionaries with the same keys in the same order and the same values. -/
theorem ext_get {d e : OrderedDict κ ν} (keys : d.keys = e.keys) (get : ∀ k, d.get k = e.get k) :
    d = e := by
  apply AList.ext
  rw [← filterMap_dlookup_entry d.entries d.nodupKeys,
    ← filterMap_dlookup_entry e.entries e.nodupKeys]
  have same : d.entries.keys = e.entries.keys := keys
  rw [same]
  apply List.filterMap_congr
  intro k _
  exact congrArg (Option.map (Sigma.mk k)) (get k)

theorem setItem_setItem (d : OrderedDict κ ν) (k : κ) (v w : ν) :
    (d.setItem k v).setItem k w = d.setItem k w := by
  apply ext_get
  · rw [keys_setItem, keys_setItem, keys_setItem]
    split_ifs with present
    · rfl
    · rfl
    · rename_i absent
      exact absurd List.mem_cons_self absent
  · intro k'
    rw [get_setItem, get_setItem, get_setItem]
    split_ifs <;> rfl

theorem setItem_get {d : OrderedDict κ ν} {k : κ} {v : ν} (present : d.get k = some v) :
    d.setItem k v = d := by
  have mem : k ∈ d.keys := by
    by_contra absent
    rw [get_eq_none.mpr fun there => absent (AList.mem_keys.mp there)] at present
    cases present
  apply ext_get
  · rw [keys_setItem, if_pos mem]
  · intro k'
    rw [get_setItem]
    split_ifs with same
    · rw [same, present]
    · rfl

/-- The oldest key is the last one. -/
theorem keys_pop_first {d : OrderedDict κ ν} {k : κ} {v : ν} (oldest : d.first = some (k, v)) :
    d.keys = (d.pop k).keys ++ [k] := by
  obtain ⟨e, last, same⟩ := Option.map_eq_some_iff.mp oldest
  obtain ⟨front, split⟩ := List.getLast?_eq_some_iff.mp last
  obtain rfl : e.1 = k := congrArg Prod.fst same
  have keys : d.keys = front.map Sigma.fst ++ [e.1] := by
    change d.entries.map Sigma.fst = _
    rw [split, List.map_append, List.map_singleton]
  have nodup := d.keys_nodup
  rw [keys] at nodup
  have absent : e.1 ∉ front.map Sigma.fst := fun mem =>
    (List.nodup_append'.mp nodup).2.2 mem List.mem_cons_self
  rw [pop, AList.keys_erase, keys, List.erase_append_right _ absent, List.erase_cons_head,
    List.append_nil]

/-- The value that leaves is no longer counted. -/
theorem countValues_pop (p : ν → Bool) {d : OrderedDict κ ν} {k : κ} {v : ν}
    (present : d.get k = some v) :
    d.countValues p = (d.pop k).countValues p + if p v then 1 else 0 := by
  have mem : k ∈ d.entries.keys := by
    by_contra absent
    rw [get_eq_none.mpr fun there => absent (AList.mem_keys.mp there)] at present
    cases present
  obtain ⟨b, front, back, before, split, erased⟩ := List.exists_of_kerase mem
  have same : b = v := by
    have found := d.mem_lookup_iff.mpr (split ▸ List.mem_append_right _ List.mem_cons_self)
    exact Option.some.inj (found.symm.trans present)
  have left : (d.pop k).entries = front ++ back := erased
  unfold countValues
  rw [left, split, same, List.countP_append, List.countP_cons, List.countP_append, Nat.add_assoc]

theorem countValues_setItem (p : ν → Bool) {d : OrderedDict κ ν} {k : κ} (v : ν) (absent : k ∉ d) :
    (d.setItem k v).countValues p = d.countValues p + if p v then 1 else 0 := by
  unfold setItem countValues
  rw [if_neg absent, AList.entries_insert_of_notMem absent, List.countP_cons]

theorem countValues_moveToEnd (p : ν → Bool) (d : OrderedDict κ ν) (k : κ) :
    (d.moveToEnd k).countValues p = d.countValues p := by
  unfold moveToEnd
  split
  · rename_i v present
    rw [countValues_pop p present, countValues, AList.entries_insert, List.countP_cons]
    rfl
  · rfl

/-- Keys come in the order of their first element. -/
theorem keys_foldl_updateItem {α : Type} (key : α → κ) (update : Option ν → α → ν)
    (items : List α) :
    (items.foldl (updateItem key update) ∅).keys = (items.map key).reverse.dedup := by
  induction items using List.reverseRecOn with
  | nil => rfl
  | append_singleton items a ih =>
    rw [List.foldl_append, List.foldl_cons, List.foldl_nil, updateItem, keys_setItem, ih,
      List.map_append, List.reverse_append, List.map_singleton, List.reverse_singleton,
      List.singleton_append]
    by_cases hmem : key a ∈ (items.map key).reverse
    · rw [if_pos (List.mem_dedup.mpr hmem), List.dedup_cons_of_mem hmem]
    · rw [if_neg (fun h => hmem (List.mem_dedup.mp h)), List.dedup_cons_of_notMem hmem]

/-- The value of a key is the update of its own elements. -/
theorem get_foldl_updateItem {α : Type} (key : α → κ) (update : Option ν → α → ν)
    (items : List α) (d : OrderedDict κ ν) (k : κ) :
    get (items.foldl (updateItem key update) d) k =
      (items.filter fun a => key a = k).foldl (fun entry a => some (update entry a)) (d.get k) := by
  induction items generalizing d with
  | nil => rfl
  | cons a items ih =>
    rw [List.foldl_cons, ih, updateItem, get_setItem]
    by_cases hk : k = key a
    · subst hk
      simp
    · rw [if_neg hk, List.filter_cons_of_neg (by simpa using Ne.symm hk)]

theorem values_foldl_updateItem {α : Type} (key : α → κ) (update : Option ν → α → ν)
    (items : List α) :
    values (items.foldl (updateItem key update) ∅) =
      (items.map key).reverse.dedup.reverse.filterMap fun k =>
        (items.filter fun a => key a = k).foldl (fun entry a => some (update entry a)) none := by
  rw [values_eq, keys_foldl_updateItem]
  apply List.filterMap_congr
  intro k _
  rw [get_foldl_updateItem, get_empty]

end OrderedDict
end TrajProxy
