import TrajProxy.Manager.State

/-! The cache of `ProcessorManager` against its configuration maps.
Every writer but two either finds no Processor under its key or drops the one
it finds; `register_from_config` and the store of `try_get_or_sync_from_db`
write over a configuration and leave the Processor. `StaleWrite` says when that
makes a difference, and a run is coherent exactly when it contains none. -/

namespace TrajProxy.Manager
open Transition

/-- The configuration a Processor was built from is the current one on the six
fields that `full_sync` compares. -/
def Loaded.Agrees (loaded : Loaded) (current : Option ConfigRef) : Prop :=
  ∃ ref, current = some ref ∧ loaded.config.SameFields ref.config

structure Coherent (s : State) : Prop where
  cached : ∀ key loaded, s.processorCache.get key = some loaded →
    loaded.Agrees (s.effective key)
  returned : ∀ e ∈ s.served, e.processor.Agrees e.effective

/-- Writing `config` under `key` leaves a Processor of other fields behind. -/
def Supersedes (s : State) (key : Key) (config : ConfigRef) : Prop :=
  s.configConfigs.get key = none ∧
    ∃ loaded, s.processorCache.get key = some loaded ∧
      ¬loaded.config.SameFields config.config

def StaleWrite (s : State) : Action → Prop
  | .registerFromConfig config => Supersedes s config.key config
  | .fetchReturned i (some config) _ =>
    ∃ key, s.fetching[i]? = some key ∧ Supersedes s key config
  | _ => False

namespace State

/-- The state with `config` in `_dynamic_configs[key]`. -/
def store (s : State) (key : Key) (config : ConfigRef) : State :=
  { s with dynamicConfigs := s.dynamicConfigs.setItem key config }

theorem effective_store (s : State) (key key' : Key) (config : ConfigRef) :
    (s.store key config).effective key' =
      if key' = key then (s.configConfigs.get key).or (some config) else s.effective key' := by
  unfold store effective
  rw [OrderedDict.get_setItem]
  split_ifs with eq
  · rw [eq]
  · rfl

theorem effective_unregisterByKey (s : State) {key key' : Key} (h : key' ≠ key) :
    (s.unregisterByKey key).effective key' = s.effective key' := by
  simp [unregisterByKey, dropProcessor, effective, OrderedDict.get_pop, h]

theorem newConfig_key {s : State} {r : Registration} {resolve : String → Option String}
    {now : Nat} {config : ModelConfig} (h : s.newConfig r resolve now = some config) :
    config.key = (r.runId, r.modelName) := by
  unfold newConfig at h
  simp only at h
  split_ifs at h with present blank
  split at h
  · rw [Option.map_eq_some_iff] at h
    obtain ⟨path, -, made⟩ := h
    rw [← made]
    rfl
  · rw [Option.some_inj] at h
    rw [← h]
    rfl

theorem newConfig_absent {s : State} {r : Registration} {resolve : String → Option String}
    {now : Nat} {config : ModelConfig} (h : s.newConfig r resolve now = some config) :
    s.configConfigs.get config.key = none ∧ s.dynamicConfigs.get config.key = none := by
  have key := newConfig_key h
  unfold newConfig at h
  simp only at h
  split_ifs at h with present blank
  rw [not_or] at present
  rw [key, OrderedDict.get_eq_none, OrderedDict.get_eq_none]
  exact present

@[simp] theorem get_dropProcessor (s : State) (key key' : Key) :
    (s.dropProcessor key).processorCache.get key' =
      if key' = key then none else s.processorCache.get key' :=
  OrderedDict.get_pop ..

@[simp] theorem effective_dropProcessor (s : State) (key key' : Key) :
    (s.dropProcessor key).effective key' = s.effective key' := rfl

@[simp] theorem get_touch (s : State) (key key' : Key) (now : Nat) :
    (s.touch key now).processorCache.get key' = s.processorCache.get key' := by
  unfold touch
  split_ifs
  · exact OrderedDict.get_moveToEnd ..
  · rfl

@[simp] theorem effective_touch (s : State) (key key' : Key) (now : Nat) :
    (s.touch key now).effective key' = s.effective key' := by
  unfold touch
  split_ifs <;> rfl

@[simp] theorem served_touch (s : State) (key : Key) (now : Nat) :
    (s.touch key now).served = s.served := by
  unfold touch
  split_ifs <;> rfl

end State

namespace Coherent

variable {s s' : State} {key : Key} {loaded : Loaded}

/-- Cache entries may go while their configurations stay. -/
theorem mono (h : Coherent s) (served : s'.served = s.served)
    (kept : ∀ key loaded, s'.processorCache.get key = some loaded →
      s.processorCache.get key = some loaded ∧ s'.effective key = s.effective key) :
    Coherent s' where
  cached := by
    intro key loaded present
    obtain ⟨before, same⟩ := kept key loaded present
    exact same ▸ h.cached key loaded before
  returned := served ▸ h.returned

theorem initial (cacheMaxSize idleTimeout : Nat) :
    Coherent (initial cacheMaxSize idleTimeout) where
  cached := by
    intro key loaded present
    simp [Manager.initial] at present
  returned := by simp [Manager.initial]

theorem serve (h : Coherent s) (agrees : loaded.Agrees (s.effective key)) :
    Coherent (s.serve key loaded) where
  cached := h.cached
  returned := by
    intro e mem
    simp only [State.serve, List.mem_cons] at mem
    cases mem with
    | inl new => exact new ▸ agrees
    | inr old => exact h.returned e old

theorem touch (h : Coherent s) (key : Key) (now : Nat) : Coherent (s.touch key now) := by
  refine h.mono (State.served_touch ..) fun key' loaded present => ?_
  rw [State.get_touch] at present
  exact ⟨present, State.effective_touch ..⟩

theorem serveCached (h : Coherent s) (now : Nat)
    (present : s.processorCache.get key = some loaded) :
    Coherent ((s.touch key now).serve key loaded) := by
  refine (h.touch key now).serve ?_
  rw [State.effective_touch]
  exact h.cached key loaded present

theorem dropProcessor (h : Coherent s) (key : Key) : Coherent (s.dropProcessor key) := by
  refine h.mono rfl fun key' loaded present => ?_
  rw [State.get_dropProcessor] at present
  split_ifs at present
  exact ⟨present, rfl⟩

theorem evictWhileFull (h : Coherent s) (fuel : Nat) : Coherent (s.evictWhileFull fuel) := by
  induction fuel generalizing s with
  | zero => exact h
  | succ fuel ih =>
    unfold State.evictWhileFull
    split_ifs
    · refine ih ?_
      unfold State.evictOne
      split
      · exact h.dropProcessor _
      · exact h
    · exact h

theorem unregisterByKey (h : Coherent s) (key : Key) : Coherent (s.unregisterByKey key) := by
  refine h.mono rfl fun key' loaded present => ?_
  rw [State.unregisterByKey, State.get_dropProcessor] at present
  split_ifs at present with other
  exact ⟨present, State.effective_unregisterByKey s other⟩

/-- `unregister_dynamic_processor` and the rollback of a registration. -/
theorem unregisterPresent (h : Coherent s) (key : Key) :
    Coherent (if key ∈ s.dynamicConfigs then s.unregisterByKey key else s) := by
  split_ifs
  · exact h.unregisterByKey key
  · exact h

/-- A write that supersedes no cached Processor. -/
theorem store_iff (h : Coherent s) (key : Key) (config : ConfigRef) :
    Coherent (s.store key config) ↔ ¬Supersedes s key config := by
  refine ⟨?_, ?_⟩
  · intro after stale
    obtain ⟨dynamic, loaded, present, differ⟩ := stale
    obtain ⟨ref, current, same⟩ := after.cached key loaded present
    rw [State.effective_store, if_pos rfl, dynamic] at current
    simp only [Option.none_or, Option.some_inj] at current
    exact differ (current ▸ same)
  · intro fresh
    refine ⟨fun key' loaded present => ?_, h.returned⟩
    have before : s.processorCache.get key' = some loaded := present
    rw [State.effective_store]
    split_ifs with eq
    · subst eq
      cases static : s.configConfigs.get key' with
      | some ref =>
        have current := h.cached key' loaded before
        rwa [State.effective, static] at current
      | none =>
        by_cases same : loaded.config.SameFields config.config
        · exact ⟨config, rfl, same⟩
        · exact absurd ⟨static, loaded, before, same⟩ fresh
    · exact h.cached key' loaded before

/-- A key without configuration has no Processor either. -/
theorem uncached (h : Coherent s) (key : Key) (absent : s.effective key = none) :
    s.processorCache.get key = none := by
  cases present : s.processorCache.get key with
  | none => rfl
  | some loaded =>
    obtain ⟨ref, current, -⟩ := h.cached key loaded present
    rw [absent] at current
    cases current

theorem store_new (h : Coherent s) (config : ConfigRef)
    (absent : s.dynamicConfigs.get key = none) : Coherent (s.store key config) := by
  rw [h.store_iff]
  intro stale
  obtain ⟨static, loaded, present, -⟩ := stale
  have none := h.uncached key (by rw [State.effective, static, absent]; rfl)
  rw [none] at present
  cases present

theorem store_evicted (h : Coherent s) (key : Key) (config : ConfigRef) :
    Coherent ((s.store key config).dropProcessor key) := by
  refine h.mono rfl fun key' loaded present => ?_
  rw [State.get_dropProcessor] at present
  split_ifs at present with other
  refine ⟨present, ?_⟩
  rw [State.effective_dropProcessor, State.effective_store, if_neg other]

theorem syncModel (h : Coherent s) (config : ConfigRef) : Coherent (s.syncModel config) := by
  unfold State.syncModel
  split
  · rename_i absent
    exact h.store_new config absent
  · split_ifs
    · exact h
    · exact h.store_evicted config.key config

theorem fullSync (h : Coherent s) (dbModels : List ConfigRef) : Coherent (s.fullSync dbModels) := by
  have added : Coherent (dbModels.foldl State.syncModel s) := by
    induction dbModels generalizing s with
    | nil => exact h
    | cons config rest ih => exact ih (h.syncModel config)
  unfold State.fullSync
  generalize s.dynamicConfigs.keys.filter (· ∉ dbModels.map ConfigRef.key) = toRemove
  generalize dbModels.foldl State.syncModel s = t at added
  induction toRemove generalizing t with
  | nil => exact added
  | cons key rest ih => exact ih _ (added.unregisterByKey key)

theorem registerStatic (h : Coherent s) (r : State.Registration)
    (resolve : String → Option String) (address now : Nat) :
    Coherent (s.registerStatic r resolve address now) := by
  unfold State.registerStatic
  split
  · rename_i config accepted
    obtain ⟨static, dynamic⟩ := State.newConfig_absent accepted
    have empty := h.uncached config.key (by rw [State.effective, static, dynamic]; rfl)
    refine h.mono rfl fun key loaded present => ⟨present, ?_⟩
    have other : key ≠ config.key := by
      intro eq
      have present : s.processorCache.get key = some loaded := present
      rw [eq, empty] at present
      cases present
    simp only [State.effective, OrderedDict.get_setItem_ne _ _ other]
  · exact h

theorem registerDynamic (h : Coherent s) (r : State.Registration)
    (resolve : String → Option String) (persistToDb : Bool) (address now : Nat) :
    Coherent (s.registerDynamic r resolve persistToDb address now) := by
  unfold State.registerDynamic
  split
  · rename_i config accepted
    have stored := h.store_new ⟨address, config⟩ (State.newConfig_absent accepted).2
    exact ⟨stored.cached, stored.returned⟩
  · exact h

theorem loadProcessor (h : Coherent s) (key : Key) (now : Nat) :
    Coherent (s.loadProcessor key now) := by
  unfold State.loadProcessor
  split
  · rename_i loaded present
    exact h.serveCached now present
  · split
    · exact ⟨h.cached, h.returned⟩
    · exact h

theorem getProcessorAsync (h : Coherent s) (key : Key) (now : Nat) :
    Coherent (s.getProcessorAsync key now) := by
  unfold State.getProcessorAsync
  split
  · rename_i loaded present
    exact h.serveCached now present
  · exact h.loadProcessor key now

theorem tryGetOrSyncFromDb (h : Coherent s) (key : Key) (now : Nat) :
    Coherent (s.tryGetOrSyncFromDb key now) := by
  unfold State.tryGetOrSyncFromDb
  split
  · rename_i loaded present
    exact h.serveCached now present
  · split
    · exact h.loadProcessor key now
    · exact ⟨h.cached, h.returned⟩

theorem lockAcquired (h : Coherent s) (load : Load) (now : Nat) :
    Coherent (s.lockAcquired load now) := by
  unfold State.lockAcquired
  split
  · rename_i loaded present
    exact h.serveCached now present
  · have room := h.evictWhileFull (OrderedDict.size s.processorCache)
    exact ⟨room.cached, room.returned⟩

/-- The identity check after the build makes the new entry agree. -/
theorem builtProcessor (h : Coherent s) {load : Load} (now : Nat)
    (built : loaded.config = load.config.config) :
    Coherent (s.builtProcessor load loaded now) := by
  have released : Coherent { s with building := none } := ⟨h.cached, h.returned⟩
  unfold State.builtProcessor
  simp only
  split
  · exact released
  · rename_i current effective
    split_ifs with same
    · have agrees : loaded.Agrees (s.effective load.key) :=
        ⟨current, effective, by rw [built, same]; exact SameFields.refl _⟩
      refine Coherent.serve ⟨fun key' loaded' present => ?_, h.returned⟩ agrees
      simp only [OrderedDict.get_setItem] at present
      split_ifs at present with eq
      · rw [Option.some_inj] at present
        subst eq
        exact present ▸ agrees
      · exact h.cached key' loaded' present
    · exact released

theorem dropProcessors (h : Coherent s) (keys : List Key) :
    Coherent (keys.foldl State.dropProcessor s) := by
  induction keys generalizing s with
  | nil => exact h
  | cons key rest ih => exact ih (h.dropProcessor key)

theorem evictIdleProcessors (h : Coherent s) (now : Nat) :
    Coherent (s.evictIdleProcessors now) := by
  unfold State.evictIdleProcessors
  simp only
  split_ifs
  · exact h
  · exact h.dropProcessors _

theorem clearCache (h : Coherent s) : Coherent s.clearCache := by
  refine h.mono rfl fun key loaded present => ?_
  simp [State.clearCache] at present

/-- A store that supersedes stays wrong through the load that follows it. -/
theorem fetched_iff (h : Coherent s) (key : Key) (row : Option ConfigRef) (now : Nat) :
    Coherent (s.fetched key row now) ↔ ∀ config, row = some config → ¬Supersedes s key config := by
  cases row with
  | none => simpa [State.fetched] using h
  | some config =>
    have stored := h.store_iff key config
    simp only [Option.some_inj, forall_eq']
    refine ⟨?_, ?_⟩
    · intro after stale
      obtain ⟨static, loaded, present, differ⟩ := stale
      have cached : (s.store key config).processorCache.get key = some loaded := present
      have served : s.fetched key (some config) now =
          ((s.store key config).touch key now).serve key loaded := by
        change (s.store key config).loadProcessor key now = _
        rw [State.loadProcessor, cached]
      rw [served] at after
      obtain ⟨ref, current, same⟩ := after.cached key loaded ((State.get_touch ..).trans cached)
      change ((s.store key config).touch key now).effective key = _ at current
      rw [State.effective_touch, State.effective_store, if_pos rfl, static, Option.none_or,
        Option.some_inj] at current
      exact differ (current ▸ same)
    · intro fresh
      exact (stored.mpr fresh).loadProcessor key now

end Coherent

/-- From a coherent state a step is coherent exactly when it is no stale write. -/
theorem step_coherent_iff (s : State) (a : Action) (s' : State) (h : Coherent s)
    (taken : machine.step s a = some s') : Coherent s' ↔ ¬StaleWrite s a := by
  cases step_cases taken with
  | registerFromConfig config => exact h.store_iff config.key config
  | fetchReturned i row now key pending =>
    have resumed : Coherent { s with fetching := s.fetching.eraseIdx i } :=
      ⟨h.cached, h.returned⟩
    rw [resumed.fetched_iff]
    cases row with
    | none => simp [StaleWrite]
    | some config => simp [StaleWrite, pending, Supersedes]
  | registerStatic r resolve address now =>
    exact iff_of_true (h.registerStatic r resolve address now) id
  | registerDynamic r resolve persistToDb address now =>
    exact iff_of_true (h.registerDynamic r resolve persistToDb address now) id
  | persistReturned i key => exact iff_of_true ⟨h.cached, h.returned⟩ id
  | persistFailed i key =>
    have resumed : Coherent { s with persisting := s.persisting.eraseIdx i } :=
      ⟨h.cached, h.returned⟩
    exact iff_of_true (resumed.unregisterPresent key) id
  | unregisterDynamic key => exact iff_of_true (h.unregisterPresent key) id
  | unregisterByKey key => exact iff_of_true (h.unregisterByKey key) id
  | fullSync dbModels => exact iff_of_true (h.fullSync dbModels) id
  | getProcessor key now => exact iff_of_true (h.getProcessorAsync key now) id
  | tryGetOrSync key now => exact iff_of_true (h.tryGetOrSyncFromDb key now) id
  | fetchFailed i key => exact iff_of_true ⟨h.cached, h.returned⟩ id
  | lockAcquired i now l =>
    have resumed : Coherent { s with waiting := s.waiting.eraseIdx i } :=
      ⟨h.cached, h.returned⟩
    exact iff_of_true (resumed.lockAcquired l now) id
  | lockWaitCancelled i l => exact iff_of_true ⟨h.cached, h.returned⟩ id
  | buildReturned now l loaded busy built =>
    exact iff_of_true (h.builtProcessor now (load_config built)) id
  | buildFailed l => exact iff_of_true ⟨h.cached, h.returned⟩ id
  | evictIdle now => exact iff_of_true (h.evictIdleProcessors now) id
  | clearCache => exact iff_of_true h.clearCache id

/-- Every state of a run is coherent exactly when no step of the run writes over
the configuration of a cached Processor that differs from it. -/
theorem run_coherent_iff (cacheMaxSize idleTimeout : Nat) (as : List Action) :
    machine.Along Coherent (initial cacheMaxSize idleTimeout) as ↔
      machine.Guarded (fun s a => ¬StaleWrite s a) (initial cacheMaxSize idleTimeout) as :=
  Machine.along_iff_guarded step_coherent_iff (Coherent.initial cacheMaxSize idleTimeout) as

/-- A model registered again with another upstream keeps serving the old one. -/
theorem superseded_upstream_served :
    ¬∀ (cacheMaxSize idleTimeout : Nat) (as : List Action),
      machine.Along Coherent (initial cacheMaxSize idleTimeout) as := by
  intro all
  let before : ModelConfig :=
    { url := "http://old", apiKey := "old", tokenizerPath := none, runId := "", modelName := "m"
      tokenInTokenOut := false, toolParser := "", reasoningParser := "", updatedAt := none }
  let after : ModelConfig := { before with url := "http://new", apiKey := "new" }
  let run : List Action := [.registerFromConfig ⟨0, before⟩, .getProcessor ("", "m") 0,
    .lockAcquired 0 0, .buildReturned 0, .registerFromConfig ⟨1, after⟩]
  obtain ⟨s, ran, cached, effective⟩ : ∃ s, machine.exec (initial 32 300) run = some s ∧
      s.processorCache.get ("", "m") = load before ∧
      s.effective ("", "m") = some ⟨1, after⟩ := ⟨_, rfl, rfl, rfl⟩
  obtain ⟨loaded, loads⟩ : ∃ loaded, load before = some loaded := ⟨_, rfl⟩
  obtain ⟨ref, current, same⟩ := ((all 32 300 run).exec ran).cached _ loaded (cached.trans loads)
  rw [effective, Option.some_inj] at current
  rw [← current, load_config loads] at same
  exact absurd same (by decide)

end TrajProxy.Manager
