import TrajProxy.Manager.State

/-! The `model_registry` table and the memory that mirrors it.
`Registry` carries the table's unique constraint. What `full_sync` does to the
memory of one key is a merge of that key's entry with its row
(`configured_fullSync`), whatever the order of the rows. -/

namespace TrajProxy.Sync
open Manager

/-- The row of a key in a list of rows. -/
def findRow (rows : List ModelConfig) (key : Key) : Option ModelConfig :=
  rows.find? (·.key = key)

structure Registry where
  rows : List ModelConfig
  unique : (rows.map ModelConfig.key).Nodup

theorem findRow_eq_none {rows : List ModelConfig} {key : Key} :
    findRow rows key = none ↔ key ∉ rows.map ModelConfig.key := by
  simp [findRow, List.find?_eq_none]

theorem findRow_key {rows : List ModelConfig} {key : Key} {config : ModelConfig}
    (h : findRow rows key = some config) : config.key = key := by
  simpa using List.find?_some h

namespace Registry

def empty : Registry := ⟨[], List.nodup_nil⟩

/-- `get_by_key` -/
def get (db : Registry) (key : Key) : Option ModelConfig := findRow db.rows key

private theorem keys_upsert (rows : List ModelConfig) (config : ModelConfig) :
    ((rows.map fun row => if row.key = config.key then config else row).map ModelConfig.key) =
      rows.map ModelConfig.key := by
  rw [List.map_map]
  refine List.map_congr_left fun row _ => ?_
  by_cases eq : row.key = config.key <;> simp [eq]

/-- The statement of `register`: insert, or update the row of the key. -/
def upsert (db : Registry) (config : ModelConfig) : Registry :=
  if present : config.key ∈ db.rows.map ModelConfig.key then
    ⟨db.rows.map fun row => if row.key = config.key then config else row,
      by rw [keys_upsert]; exact db.unique⟩
  else
    ⟨db.rows ++ [config], by
      rw [List.map_append, List.nodup_append]
      refine ⟨db.unique, List.nodup_singleton config.key, ?_⟩
      intro key mem key' mem' eq
      rw [List.map_singleton, List.mem_singleton] at mem'
      exact present (mem' ▸ eq ▸ mem)⟩

/-- The statement of `unregister`. -/
def delete (db : Registry) (key : Key) : Registry :=
  ⟨db.rows.filter (·.key ≠ key), db.unique.sublist (List.filter_sublist.map _)⟩

theorem get_upsert (db : Registry) (config : ModelConfig) (key : Key) :
    (db.upsert config).get key = if key = config.key then some config else db.get key := by
  unfold upsert
  split_ifs with present eq eq
  · subst eq
    have rows : ∀ rows : List ModelConfig, config.key ∈ rows.map ModelConfig.key →
        findRow (rows.map fun row => if row.key = config.key then config else row)
          config.key = some config := by
      intro rows
      induction rows with
      | nil => simp
      | cons row rows ih =>
        intro mem
        by_cases here : row.key = config.key
        · simp [findRow, here]
        · have tail : config.key ∈ rows.map ModelConfig.key := by
            simpa [Ne.symm here] using mem
          simpa [findRow, here] using ih tail
    exact rows db.rows present
  · have rows : ∀ rows : List ModelConfig,
        findRow (rows.map fun row => if row.key = config.key then config else row) key =
          findRow rows key := by
      intro rows
      induction rows with
      | nil => rfl
      | cons row rows ih =>
        by_cases here : row.key = config.key
        · simpa [findRow, here, Ne.symm eq] using ih
        · by_cases this : row.key = key
          · have other : ¬key = config.key := eq
            simp [findRow, this, other]
          · simpa [findRow, here, this] using ih
    exact rows db.rows
  · subst eq
    have none := findRow_eq_none.mpr present
    simp only [findRow] at none
    simp [get, findRow, List.find?_append, none]
  · simp [get, findRow, List.find?_append, Ne.symm eq]

theorem get_delete (db : Registry) (key key' : Key) :
    (db.delete key).get key' = if key' = key then none else db.get key' := by
  simp only [get, delete, findRow]
  generalize db.rows = rows
  induction rows with
  | nil => simp
  | cons row rows ih =>
    by_cases gone : row.key = key
    · by_cases eq : key' = key
      · simp [eq]
      · simpa [gone, eq, Ne.symm eq] using ih
    · by_cases eq : row.key = key'
      · have other : ¬key' = key := fun h => gone (eq.trans h)
        simp [eq, other]
      · simpa [gone, eq] using ih

end Registry

/-- The configuration the manager holds for a dynamic key. -/
def configured (manager : State) (key : Key) : Option ModelConfig :=
  (manager.dynamicConfigs.get key).map ConfigRef.config

/-- Two entries of one key that `full_sync` does not tell apart. -/
def Same : Option ModelConfig → Option ModelConfig → Prop
  | none, none => True
  | some c, some d => c.SameFields d
  | _, _ => False

/-- What `full_sync` makes of a memory entry, given the row of its key. -/
def merge : Option ModelConfig → Option ModelConfig → Option ModelConfig
  | _, none => none
  | none, some row => some row
  | some existing, some row => if existing.SameFields row then some existing else some row

theorem merge_same (entry row : Option ModelConfig) : Same (merge entry row) row := by
  cases row with
  | none => trivial
  | some row =>
    cases entry with
    | none => exact SameFields.refl row
    | some existing =>
      by_cases same : existing.SameFields row
      · rw [merge, if_pos same]
        exact same
      · rw [merge, if_neg same]
        exact SameFields.refl row

theorem merge_of_same {entry row : Option ModelConfig} (h : Same row entry) :
    merge entry row = entry := by
  cases row with
  | none =>
    cases entry with
    | none => rfl
    | some existing => exact h.elim
  | some row =>
    cases entry with
    | none => exact h.elim
    | some existing => exact if_pos (SameFields.symm h)

theorem configured_registerFromConfig (manager : State) (ref : ConfigRef) (key : Key) :
    configured (manager.registerFromConfig ref) key =
      if key = ref.key then some ref.config else configured manager key := by
  unfold configured State.registerFromConfig
  rw [OrderedDict.get_setItem]
  split_ifs <;> rfl

theorem configured_unregisterByKey (manager : State) (key key' : Key) :
    configured (manager.unregisterByKey key) key' =
      if key' = key then none else configured manager key' := by
  unfold configured State.unregisterByKey State.dropProcessor
  rw [OrderedDict.get_pop]
  split_ifs <;> rfl

theorem configured_syncModel (manager : State) (ref : ConfigRef) (key : Key) :
    configured (manager.syncModel ref) key =
      if key = ref.key then merge (configured manager key) (some ref.config)
      else configured manager key := by
  unfold State.syncModel
  have register := configured_registerFromConfig manager ref key
  cases present : manager.dynamicConfigs.get ref.key with
  | none =>
    rw [register]
    split_ifs with eq
    · rw [configured, eq, present]
      rfl
    · rfl
  | some existing =>
    have here : configured manager ref.key = some existing.config := by
      rw [configured, present]
      rfl
    simp only
    by_cases same : existing.config.SameFields ref.config
    · rw [if_pos same]
      split_ifs with eq
      · rw [eq, here, merge, if_pos same]
      · rfl
    · rw [if_neg same]
      change configured (manager.registerFromConfig ref) key = _
      rw [register]
      split_ifs with eq
      · rw [eq, here, merge, if_neg same]
      · rfl

theorem configured_syncModels (manager : State) (dbModels : List ConfigRef) (key : Key)
    (unique : (dbModels.map ConfigRef.key).Nodup) :
    configured (dbModels.foldl State.syncModel manager) key =
      match findRow (dbModels.map ConfigRef.config) key with
      | some row => merge (configured manager key) (some row)
      | none => configured manager key := by
  induction dbModels generalizing manager with
  | nil => rfl
  | cons ref rest ih =>
    rw [List.map_cons, List.nodup_cons] at unique
    rw [List.foldl_cons, ih _ unique.2, configured_syncModel]
    by_cases eq : key = ref.key
    · have last : findRow (rest.map ConfigRef.config) key = none := by
        rw [findRow_eq_none, List.map_map, eq]
        exact unique.1
      have first : findRow ((ref :: rest).map ConfigRef.config) key = some ref.config := by
        have here : ref.config.key = key := eq.symm
        simp [findRow, here]
      rw [last, first, if_pos eq]
    · have skip : findRow ((ref :: rest).map ConfigRef.config) key =
          findRow (rest.map ConfigRef.config) key := by
        have other : ¬ref.config.key = key := Ne.symm eq
        simp [findRow, other]
      rw [skip, if_neg eq]

theorem configured_unregisterAll (manager : State) (keys : List Key) (key : Key) :
    configured (keys.foldl State.unregisterByKey manager) key =
      if key ∈ keys then none else configured manager key := by
  induction keys generalizing manager with
  | nil => rfl
  | cons first rest ih =>
    rw [List.foldl_cons, ih, configured_unregisterByKey]
    by_cases eq : key = first <;> by_cases mem : key ∈ rest <;> simp [eq, mem]

/-- The memory of a key after `full_sync`. -/
theorem configured_fullSync (manager : State) (dbModels : List ConfigRef) (key : Key)
    (unique : (dbModels.map ConfigRef.key).Nodup) :
    configured (manager.fullSync dbModels) key =
      merge (configured manager key) (findRow (dbModels.map ConfigRef.config) key) := by
  have keys : dbModels.map ConfigRef.key =
      (dbModels.map ConfigRef.config).map ModelConfig.key := by
    rw [List.map_map]
    rfl
  have removed : key ∈ manager.dynamicConfigs.keys.filter (· ∉ dbModels.map ConfigRef.key) ↔
      key ∈ manager.dynamicConfigs ∧ key ∉ dbModels.map ConfigRef.key := by
    rw [List.mem_filter, decide_eq_true_eq]
    rfl
  unfold State.fullSync
  rw [configured_unregisterAll, configured_syncModels _ _ _ unique]
  cases row : findRow (dbModels.map ConfigRef.config) key with
  | some found =>
    have kept : key ∈ dbModels.map ConfigRef.key := by
      rw [keys]
      by_contra absent
      rw [findRow_eq_none.mpr absent] at row
      cases row
    rw [if_neg (fun h => (removed.mp h).2 kept)]
  | none =>
    have gone : key ∉ dbModels.map ConfigRef.key := by
      rw [keys]
      exact findRow_eq_none.mp row
    by_cases held : key ∈ manager.dynamicConfigs
    · rw [if_pos (removed.mpr ⟨held, gone⟩), merge]
    · rw [if_neg (fun h => held (removed.mp h).1)]
      have absent := OrderedDict.get_eq_none.mpr held
      simp [configured, absent, merge]

end TrajProxy.Sync
