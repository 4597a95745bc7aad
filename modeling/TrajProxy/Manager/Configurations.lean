import TrajProxy.Manager.Registration

/-! The configurations the manager holds, by model name.
Every configuration is stored under its own key as long as `get_by_key` answers
with the row it was asked for, so a name is held exactly when some key has it;
what each writer does to the names follows from what it does to the keys. -/

namespace TrajProxy.Manager
open Transition

/-- Some configuration of the map has this `model_name`. -/
def Named (configs : OrderedDict Key ConfigRef) (model : String) : Prop :=
  ∃ key config, configs.get key = some config ∧ config.config.modelName = model

def OwnKeys (configs : OrderedDict Key ConfigRef) : Prop :=
  ∀ key config, configs.get key = some config → config.key = key

section Names

variable {configs : OrderedDict Key ConfigRef} {key : Key} {model : String}

theorem OwnKeys.named_iff (own : OwnKeys configs) :
    Named configs model ↔ ∃ key ∈ configs, key.2 = model := by
  constructor
  · rintro ⟨key, config, present, name⟩
    have mem : key ∈ configs := by
      by_contra absent
      rw [OrderedDict.get_eq_none.mpr absent] at present
      cases present
    exact ⟨key, mem, (congrArg Prod.snd (own key config present)).symm.trans name⟩
  · rintro ⟨key, mem, name⟩
    obtain ⟨config, present⟩ := Option.ne_none_iff_exists'.mp
      (mt OrderedDict.get_eq_none.mp (not_not_intro mem))
    exact ⟨key, config, present, (congrArg Prod.snd (own key config present)).trans name⟩

theorem OwnKeys.empty : OwnKeys ∅ := by
  intro key config present
  rw [OrderedDict.get_empty] at present
  cases present

theorem OwnKeys.setItem (own : OwnKeys configs) (config : ConfigRef) :
    OwnKeys (configs.setItem config.key config) := by
  intro key other present
  rw [OrderedDict.get_setItem] at present
  split_ifs at present with same
  · rw [same, Option.some_inj.mp present]
  · exact own key other present

theorem OwnKeys.pop (own : OwnKeys configs) (key : Key) : OwnKeys (configs.pop key) := by
  intro key' config present
  rw [OrderedDict.get_pop] at present
  split_ifs at present
  exact own key' config present

theorem OwnKeys.named_setItem (own : OwnKeys configs) (config : ConfigRef) :
    Named (configs.setItem config.key config) model ↔
      config.config.modelName = model ∨ Named configs model := by
  rw [(own.setItem config).named_iff, own.named_iff]
  simp only [OrderedDict.mem_setItem, or_and_right, exists_or, exists_eq_left]
  rfl

theorem OwnKeys.named_pop (own : OwnKeys configs) (key : Key) :
    Named (configs.pop key) model ↔ ∃ other ∈ configs, other ≠ key ∧ other.2 = model := by
  rw [(own.pop key).named_iff]
  simp only [OrderedDict.mem_pop]
  constructor
  · rintro ⟨other, ⟨ne, mem⟩, name⟩
    exact ⟨other, mem, ne, name⟩
  · rintro ⟨other, mem, ne, name⟩
    exact ⟨other, ⟨ne, mem⟩, name⟩

end Names

/-- The maps are as they were. -/
structure SameConfigs (s s' : State) : Prop where
  static : s'.configConfigs = s.configConfigs
  dynamic : s'.dynamicConfigs = s.dynamicConfigs

/-- Actions that write to neither map. -/
def Reads : Action → Prop
  | .persistReturned _ | .getProcessor .. | .tryGetOrSync .. | .fetchFailed _ => True
  | .fetchReturned _ none _ | .lockAcquired .. | .lockWaitCancelled _ => True
  | .buildReturned _ | .buildFailed | .evictIdle _ | .clearCache => True
  | _ => False

namespace SameConfigs

variable {s s' : State}

theorem refl (s : State) : SameConfigs s s := ⟨rfl, rfl⟩

theorem trans {t : State} (first : SameConfigs s s') (second : SameConfigs s' t) :
    SameConfigs s t :=
  ⟨second.static.trans first.static, second.dynamic.trans first.dynamic⟩

theorem touch (s : State) (key : Key) (now : Nat) : SameConfigs s (s.touch key now) := by
  unfold State.touch
  split_ifs <;> exact ⟨rfl, rfl⟩

theorem serveCached (s : State) (key : Key) (loaded : Loaded) (now : Nat) :
    SameConfigs s ((s.touch key now).serve key loaded) :=
  (touch s key now).trans ⟨rfl, rfl⟩

theorem loadProcessor (s : State) (key : Key) (now : Nat) :
    SameConfigs s (s.loadProcessor key now) := by
  unfold State.loadProcessor
  split
  · exact serveCached s key _ now
  · split <;> exact ⟨rfl, rfl⟩

theorem evictOne (s : State) : SameConfigs s s.evictOne := by
  unfold State.evictOne
  split <;> exact ⟨rfl, rfl⟩

theorem evictWhileFull (fuel : Nat) (s : State) : SameConfigs s (s.evictWhileFull fuel) := by
  induction fuel generalizing s with
  | zero => exact refl s
  | succ fuel ih =>
    unfold State.evictWhileFull
    split_ifs
    · exact (evictOne s).trans (ih s.evictOne)
    · exact refl s

theorem lockAcquired (s : State) (load : Load) (now : Nat) :
    SameConfigs s (s.lockAcquired load now) := by
  unfold State.lockAcquired
  split
  · exact serveCached s load.key _ now
  · exact (evictWhileFull (OrderedDict.size s.processorCache) s).trans ⟨rfl, rfl⟩

theorem builtProcessor (s : State) (load : Load) (processor : Loaded) (now : Nat) :
    SameConfigs s (s.builtProcessor load processor now) := by
  unfold State.builtProcessor
  dsimp only
  split
  · exact ⟨rfl, rfl⟩
  · split_ifs <;> exact ⟨rfl, rfl⟩

theorem dropProcessors (s : State) (keys : List Key) :
    SameConfigs s (keys.foldl State.dropProcessor s) := by
  induction keys generalizing s with
  | nil => exact refl s
  | cons key keys ih =>
    have dropped : SameConfigs s (s.dropProcessor key) := ⟨rfl, rfl⟩
    exact dropped.trans (ih (s.dropProcessor key))

theorem step {a : Action} (reads : Reads a) (step : Step s a s') : SameConfigs s s' := by
  cases step with
  | persistReturned | fetchFailed | lockWaitCancelled | buildFailed | clearCache =>
    exact ⟨rfl, rfl⟩
  | getProcessor key now =>
    unfold State.getProcessorAsync
    split
    · exact serveCached s key _ now
    · exact loadProcessor s key now
  | tryGetOrSync key now =>
    unfold State.tryGetOrSyncFromDb
    split
    · exact serveCached s key _ now
    · split
      · exact loadProcessor s key now
      · exact ⟨rfl, rfl⟩
  | fetchReturned i row now key =>
    cases row with
    | none => exact ⟨rfl, rfl⟩
    | some config => exact reads.elim
  | lockAcquired i now l =>
    have resumed : SameConfigs s { s with waiting := s.waiting.eraseIdx i } := ⟨rfl, rfl⟩
    exact resumed.trans (lockAcquired _ l now)
  | buildReturned now l loaded => exact builtProcessor s l loaded now
  | evictIdle now =>
    unfold State.evictIdleProcessors
    dsimp only
    split_ifs
    · exact refl s
    · exact dropProcessors s _
  | registerStatic | registerDynamic | persistFailed | unregisterDynamic | registerFromConfig
  | unregisterByKey | fullSync => exact reads.elim

end SameConfigs

section Static
open State

variable {s : State}

theorem configConfigs_syncModel (s : State) (config : ConfigRef) :
    (s.syncModel config).configConfigs = s.configConfigs := by
  unfold syncModel
  split
  · rfl
  · split_ifs <;> rfl

theorem configConfigs_foldl {α : Type} {op : State → α → State}
    (step : ∀ s a, (op s a).configConfigs = s.configConfigs) (as : List α) :
    (as.foldl op s).configConfigs = s.configConfigs := by
  induction as generalizing s with
  | nil => rfl
  | cons a as ih => exact ih.trans (step s a)

theorem configConfigs_fullSync (s : State) (dbModels : List ConfigRef) :
    (s.fullSync dbModels).configConfigs = s.configConfigs := by
  have removed (s : State) (key : Key) :
      (s.unregisterByKey key).configConfigs = s.configConfigs := rfl
  exact (configConfigs_foldl removed _).trans
    (configConfigs_foldl configConfigs_syncModel dbModels)

end Static

/-- Both maps store every configuration under its own key. -/
structure Keyed (s : State) : Prop where
  static : OwnKeys s.configConfigs
  dynamic : OwnKeys s.dynamicConfigs

/-- `get_by_key` selects by both columns. -/
def Answered (s : State) : Action → Prop
  | .fetchReturned i (some row) _ => s.fetching[i]? = some row.key
  | _ => True

instance (s : State) : (a : Action) → Decidable (Answered s a)
  | .fetchReturned i (some row) _ => inferInstanceAs (Decidable (s.fetching[i]? = some row.key))
  | .registerStatic .. | .registerDynamic .. | .unregisterDynamic _ => .isTrue trivial
  | .persistReturned _ | .persistFailed _ | .fetchReturned _ none _ => .isTrue trivial
  | .registerFromConfig _ | .unregisterByKey _ | .fullSync _ => .isTrue trivial
  | .getProcessor .. | .tryGetOrSync .. | .fetchFailed _ => .isTrue trivial
  | .lockAcquired .. | .lockWaitCancelled _ | .buildReturned _ => .isTrue trivial
  | .buildFailed | .evictIdle _ | .clearCache => .isTrue trivial

namespace Keyed

variable {s s' : State}

theorem initial (cacheMaxSize idleTimeout : Nat) : Keyed (initial cacheMaxSize idleTimeout) :=
  ⟨.empty, .empty⟩

theorem congr (h : Keyed s) (same : SameConfigs s s') : Keyed s' :=
  ⟨same.static ▸ h.static, same.dynamic ▸ h.dynamic⟩

theorem registerFromConfig (h : Keyed s) (config : ConfigRef) :
    Keyed (s.registerFromConfig config) :=
  ⟨h.static, h.dynamic.setItem config⟩

theorem unregisterByKey (h : Keyed s) (key : Key) : Keyed (s.unregisterByKey key) :=
  ⟨h.static, h.dynamic.pop key⟩

theorem unregisterPresent (h : Keyed s) (key : Key) :
    Keyed (if key ∈ s.dynamicConfigs then s.unregisterByKey key else s) := by
  split_ifs
  · exact h.unregisterByKey key
  · exact h

theorem syncModel (h : Keyed s) (config : ConfigRef) : Keyed (s.syncModel config) := by
  unfold State.syncModel
  split
  · exact h.registerFromConfig config
  · split_ifs
    · exact h
    · exact (h.registerFromConfig config).congr ⟨rfl, rfl⟩

theorem foldl {α : Type} {op : State → α → State} (step : ∀ s a, Keyed s → Keyed (op s a))
    (h : Keyed s) (as : List α) : Keyed (as.foldl op s) := by
  induction as generalizing s with
  | nil => exact h
  | cons a as ih => exact ih (step s a h)

theorem fullSync (h : Keyed s) (dbModels : List ConfigRef) : Keyed (s.fullSync dbModels) :=
  (h.foldl (fun _ config h => h.syncModel config) dbModels).foldl
    (fun _ key h => h.unregisterByKey key) _

theorem registerStatic (h : Keyed s) (r : State.Registration) (resolve : String → Option String)
    (address now : Nat) : Keyed (s.registerStatic r resolve address now) := by
  unfold State.registerStatic
  split
  · rename_i config _
    exact ⟨h.static.setItem ⟨address, config⟩, h.dynamic⟩
  · exact h

theorem registerDynamic (h : Keyed s) (r : State.Registration) (resolve : String → Option String)
    (persistToDb : Bool) (address now : Nat) :
    Keyed (s.registerDynamic r resolve persistToDb address now) := by
  unfold State.registerDynamic
  split
  · exact (h.registerFromConfig _).congr ⟨rfl, rfl⟩
  · exact h

theorem step {a : Action} (h : Keyed s) (answered : Answered s a) (step : Step s a s') :
    Keyed s' := by
  by_cases reads : Reads a
  · exact h.congr (SameConfigs.step reads step)
  cases step with
  | registerStatic r resolve address now => exact h.registerStatic r resolve address now
  | registerDynamic r resolve persistToDb address now =>
    exact h.registerDynamic r resolve persistToDb address now
  | persistFailed i key waits =>
    exact unregisterPresent (s := { s with persisting := s.persisting.eraseIdx i })
      (h.congr ⟨rfl, rfl⟩) key
  | unregisterDynamic key => exact h.unregisterPresent key
  | registerFromConfig config => exact h.registerFromConfig config
  | unregisterByKey key => exact h.unregisterByKey key
  | fullSync dbModels => exact h.fullSync dbModels
  | fetchReturned i row now key waits =>
    cases row with
    | none => exact absurd trivial reads
    | some config =>
      obtain rfl := Option.some_inj.mp (waits.symm.trans answered)
      let stored : State := { s with
        fetching := s.fetching.eraseIdx i
        dynamicConfigs := s.dynamicConfigs.setItem config.key config }
      have keyed : Keyed stored := ⟨h.static, h.dynamic.setItem config⟩
      exact keyed.congr (SameConfigs.loadProcessor stored config.key now)
  | persistReturned | getProcessor | tryGetOrSync | fetchFailed | lockAcquired | lockWaitCancelled
  | buildReturned | buildFailed | evictIdle | clearCache => exact absurd trivial reads

end Keyed

end TrajProxy.Manager
