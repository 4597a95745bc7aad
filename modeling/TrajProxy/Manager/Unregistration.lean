import TrajProxy.Manager.Registration
import TrajProxy.Sync.Model

/-! `unregister_dynamic_processor` against the table. The key leaves the memory
before the row is deleted, and an exception of the deletion does not bring it
back. -/

namespace TrajProxy.Manager
open Sync

/-- How the transaction of `ModelRegistry.unregister` ends; a commit whose
answer is lost raises too. -/
inductive Deletion
  | committed
  | rolledBack
  | unanswered
  deriving DecidableEq

/-- The `DELETE` and the `NOTIFY` of a row that was there. -/
def deleteRow (s : System) (key : Key) : System :=
  match s.db.get key with
  | some _ => { s with db := s.db.delete key, channel := s.channel ++ [.unregister key] }
  | none => s

/-- `ModelRegistry.unregister` -/
def unregister (s : System) (key : Key) : Deletion → Except Error Bool × System
  | .committed => (.ok (s.db.get key).isSome, deleteRow s key)
  | .rolledBack => (.error .databaseError, s)
  | .unanswered => (.error .databaseError, deleteRow s key)

/-- `unregister_dynamic_processor`; a missing row is only logged, and a preset
model is not removed. -/
def unregisterDynamicProcessor (s : System) (key : Key) (persistToDb : Bool)
    (deletion : Deletion) : Except Error Bool × System :=
  if key ∈ s.manager.dynamicConfigs then
    let s := { s with manager := s.manager.unregisterByKey key }
    if persistToDb then
      match unregister s key deletion with
      | (.ok _, s) => (.ok true, s)
      | (.error _, s) => (.error .databaseError, s)
    else (.ok true, s)
  else (.ok false, s)

variable {s : System} {key : Key} {deletion : Deletion}

/-- The statement is the one the synchronizer's model runs. -/
theorem deleteRow_step (s : System) (key : Key) :
    Sync.machine.step s (.dbUnregister key) = some (deleteRow s key) := by
  cases row : s.db.get key <;> simp only [Sync.machine, Sync.step, deleteRow, row]

theorem manager_deleteRow (s : System) (key : Key) : (deleteRow s key).manager = s.manager := by
  unfold deleteRow
  split <;> rfl

theorem get_deleteRow (s : System) (key key' : Key) :
    (deleteRow s key).db.get key' = if key' = key then none else s.db.get key' := by
  unfold deleteRow
  split
  · exact Registry.get_delete ..
  · rename_i missing
    split_ifs with same
    · exact same ▸ missing
    · rfl

/-- In memory the call is the manager's step. -/
theorem manager_unregisterDynamicProcessor (s : System) (key : Key) (persistToDb : Bool)
    (deletion : Deletion) :
    (unregisterDynamicProcessor s key persistToDb deletion).2.manager =
      s.manager.unregisterDynamic key := by
  unfold unregisterDynamicProcessor State.unregisterDynamic
  by_cases present : key ∈ s.manager.dynamicConfigs
  · rw [if_pos present, if_pos present]
    cases persistToDb with
    | false => rfl
    | true =>
      cases deletion with
      | committed => exact manager_deleteRow _ key
      | rolledBack => rfl
      | unanswered => exact manager_deleteRow _ key
  · rw [if_neg present, if_neg present]

/-- Nothing in memory has the key. -/
structure Forgotten (key : Key) (s : State) : Prop where
  static : key ∉ s.configConfigs
  dynamic : key ∉ s.dynamicConfigs
  cache : key ∉ s.processorCache
  times : key ∉ s.lastAccessTime

/-- The dynamic models in memory are those of the table. -/
def Agree (s : System) : Prop := ∀ key, key ∈ s.manager.dynamicConfigs ↔ (s.db.get key).isSome

/-- The call as its caller makes it, with `persist_to_db=True`. -/
structure Atomic (s : System) (key : Key) (deletion : Deletion) : Prop where
  restored : ∀ error, (unregisterDynamicProcessor s key true deletion).1 = .error error →
    (unregisterDynamicProcessor s key true deletion).2.manager = s.manager
  removed : (unregisterDynamicProcessor s key true deletion).1 = .ok true →
    Forgotten key (unregisterDynamicProcessor s key true deletion).2.manager ∧
      (unregisterDynamicProcessor s key true deletion).2.db.get key = none
  agree : Agree s → Agree (unregisterDynamicProcessor s key true deletion).2

theorem forgotten_unregisterByKey (s : State) (key : Key) :
    Forgotten key (s.unregisterByKey key) ↔ key ∉ s.configConfigs := by
  have gone {ν : Type} (d : OrderedDict Key ν) : key ∉ d.pop key :=
    fun mem => ((OrderedDict.mem_pop ..).mp mem).1 rfl
  exact ⟨fun h => h.static, fun static => ⟨static, gone _, gone _, gone _⟩⟩

theorem Agree.deleteRow {manager : State} (h : Agree s)
    (configs : manager.dynamicConfigs = s.manager.dynamicConfigs.pop key) :
    Agree (deleteRow { s with manager } key) := by
  intro key'
  rw [manager_deleteRow, get_deleteRow]
  change key' ∈ manager.dynamicConfigs ↔ _
  rw [configs, OrderedDict.mem_pop, h key']
  split_ifs with same
  · simp [same]
  · exact and_iff_right same

/-- An exception finds the memory already changed. -/
theorem not_atomic_of_raised (present : key ∈ s.manager.dynamicConfigs) {s' : System}
    (call : unregisterDynamicProcessor s key true deletion = (.error .databaseError, s'))
    (removed : s'.manager = s.manager.unregisterByKey key) : ¬Atomic s key deletion := by
  intro atomic
  have restored := atomic.restored .databaseError (congrArg Prod.fst call)
  rw [call] at restored
  have gone : key ∉ s'.manager.dynamicConfigs := by
    rw [removed]
    exact fun mem => ((OrderedDict.mem_pop ..).mp mem).1 rfl
  rw [restored] at gone
  exact gone present

theorem atomic_committed_iff (present : key ∈ s.manager.dynamicConfigs) :
    Atomic s key .committed ↔ key ∉ s.manager.configConfigs := by
  have call : unregisterDynamicProcessor s key true .committed =
      (.ok true, deleteRow { s with manager := s.manager.unregisterByKey key } key) :=
    if_pos present
  refine ⟨fun atomic => ?_, fun preset => ⟨?_, ?_, ?_⟩⟩
  · have forgotten := (atomic.removed (congrArg Prod.fst call)).1
    rw [call, manager_deleteRow] at forgotten
    exact (forgotten_unregisterByKey ..).mp forgotten
  · intro error raised
    rw [call] at raised
    cases raised
  · intro _
    rw [call, manager_deleteRow, get_deleteRow]
    exact ⟨(forgotten_unregisterByKey ..).mpr preset, if_pos rfl⟩
  · intro agree
    rw [call]
    exact agree.deleteRow rfl

/-- The call is atomic exactly if there is nothing to remove, or the deletion
goes through and no preset has the key. -/
theorem unregister_atomic_iff (s : System) (key : Key) (deletion : Deletion) :
    Atomic s key deletion ↔ key ∉ s.manager.dynamicConfigs ∨
      deletion = .committed ∧ key ∉ s.manager.configConfigs := by
  by_cases present : key ∈ s.manager.dynamicConfigs
  · have absent : ¬key ∉ s.manager.dynamicConfigs := fun gone => gone present
    cases deletion with
    | committed => simpa [absent] using atomic_committed_iff present
    | rolledBack =>
      have call : unregisterDynamicProcessor s key true .rolledBack = (.error .databaseError,
          { s with manager := s.manager.unregisterByKey key }) := if_pos present
      simpa [absent] using not_atomic_of_raised present call rfl
    | unanswered =>
      have call : unregisterDynamicProcessor s key true .unanswered = (.error .databaseError,
          deleteRow { s with manager := s.manager.unregisterByKey key } key) := if_pos present
      simpa [absent] using not_atomic_of_raised present call (manager_deleteRow ..)
  · have call : unregisterDynamicProcessor s key true deletion = (.ok false, s) := if_neg present
    refine ⟨fun _ => .inl present, fun _ => ⟨?_, ?_, ?_⟩⟩
    · intro error raised
      rw [call] at raised
      cases raised
    · intro returned
      rw [call] at returned
      cases returned
    · rw [call]
      exact id

/-- The row stays and the memory has forgotten the model. -/
theorem unregister_not_restored :
    ¬∀ (as : List Action) (s : System) (key : Key) (deletion : Deletion),
      machine.exec (initial 1 300) as = some s.manager → Atomic s key deletion := by
  intro always
  let config : ModelConfig :=
    ⟨"http://infer/v1", "key", none, "", "m", false, "", "", some 0⟩
  let manager := (initial 1 300).registerFromConfig ⟨0, config⟩
  let s : System := ⟨Registry.empty.upsert config, manager, [], .idle, none⟩
  have present : ("", "m") ∈ s.manager.dynamicConfigs :=
    (OrderedDict.mem_setItem ..).mpr (.inl rfl)
  have call : unregisterDynamicProcessor s ("", "m") true .rolledBack =
      (.error .databaseError, { s with manager := manager.unregisterByKey ("", "m") }) :=
    if_pos present
  exact not_atomic_of_raised present call rfl
    (always [.registerFromConfig ⟨0, config⟩] s ("", "m") .rolledBack rfl)

end TrajProxy.Manager
