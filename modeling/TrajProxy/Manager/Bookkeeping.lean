import TrajProxy.Manager.Coherence

/-! The three maps of `ProcessorManager` against each other, in every run.
Only `_load_processor` adds to the cache, and between its capacity check and
its insertion the lock is held: `room` says that nothing else fills the slot it
freed. All other writers shrink the cache or add configurations. -/

namespace TrajProxy.Manager
open Transition

/-- What the cache promises about its size, its access times and its
configurations. -/
structure Bookkept (cacheMaxSize : Nat) (s : State) : Prop where
  bounded : OrderedDict.size s.processorCache ≤ cacheMaxSize
  tracked : ∀ key, key ∈ s.lastAccessTime ↔ key ∈ s.processorCache
  configured : ∀ key ∈ s.processorCache, key ∈ s.configConfigs ∨ key ∈ s.dynamicConfigs

/-- The invariant of a run: a load that is building has a free slot. -/
structure Bookkeeping (cacheMaxSize : Nat) (s : State) : Prop
    extends Bookkept cacheMaxSize s where
  maxSize : s.cacheMaxSize = cacheMaxSize
  room : s.building ≠ none → OrderedDict.size s.processorCache < cacheMaxSize

namespace Bookkeeping

variable {n : Nat} {s s' : State} {key : Key}

/-- A step after which the cache is no larger, no load has started and every
cached key still has its configuration. -/
structure Shrinks (s s' : State) : Prop where
  maxSize : s'.cacheMaxSize = s.cacheMaxSize
  building : s'.building ≠ none → s.building ≠ none
  size : OrderedDict.size s'.processorCache ≤ OrderedDict.size s.processorCache
  tracked : (∀ key, key ∈ s.lastAccessTime ↔ key ∈ s.processorCache) →
    ∀ key, key ∈ s'.lastAccessTime ↔ key ∈ s'.processorCache
  configured : ∀ key ∈ s'.processorCache, key ∈ s.processorCache ∧
    (key ∈ s.configConfigs ∨ key ∈ s.dynamicConfigs →
      key ∈ s'.configConfigs ∨ key ∈ s'.dynamicConfigs)

theorem shrinks (h : Bookkeeping n s) (step : Shrinks s s') : Bookkeeping n s' where
  bounded := le_trans step.size h.bounded
  tracked := step.tracked h.tracked
  configured := by
    intro key cached
    obtain ⟨before, kept⟩ := step.configured key cached
    exact kept (h.configured key before)
  maxSize := step.maxSize.trans h.maxSize
  room := by
    intro busy
    have free := h.room (step.building busy)
    have smaller := step.size
    omega

namespace Shrinks

theorem refl (s : State) : Shrinks s s :=
  ⟨rfl, id, le_rfl, id, fun _ cached => ⟨cached, id⟩⟩

theorem trans {t : State} (first : Shrinks s s') (second : Shrinks s' t) : Shrinks s t where
  maxSize := second.maxSize.trans first.maxSize
  building := first.building ∘ second.building
  size := le_trans second.size first.size
  tracked := second.tracked ∘ first.tracked
  configured := by
    intro key cached
    obtain ⟨between, kept⟩ := second.configured key cached
    obtain ⟨before, kept'⟩ := first.configured key between
    exact ⟨before, kept ∘ kept'⟩

theorem foldl {α : Type} {f : State → α → State} (step : ∀ s a, Shrinks s (f s a))
    (items : List α) (s : State) : Shrinks s (items.foldl f s) := by
  induction items generalizing s with
  | nil => exact refl s
  | cons a rest ih => exact (step s a).trans (ih (f s a))

theorem dropProcessor (s : State) (key : Key) : Shrinks s (s.dropProcessor key) where
  maxSize := rfl
  building := id
  size := by
    simp only [State.dropProcessor, OrderedDict.size_pop]
    split_ifs <;> omega
  tracked := by
    intro tracked key'
    simp only [State.dropProcessor, OrderedDict.mem_pop, tracked]
  configured := by
    intro key' cached
    simp only [State.dropProcessor, OrderedDict.mem_pop] at cached
    exact ⟨cached.2, id⟩

theorem touch (s : State) (key : Key) (now : Nat) : Shrinks s (s.touch key now) := by
  unfold State.touch
  split_ifs with cached
  · refine ⟨rfl, id, le_of_eq (OrderedDict.size_moveToEnd ..), ?_, ?_⟩
    · intro tracked key'
      simp only [OrderedDict.mem_setItem, OrderedDict.mem_moveToEnd, tracked]
      constructor
      · rintro (rfl | old)
        · exact cached
        · exact old
      · exact Or.inr
    · intro key' mem
      simp only [OrderedDict.mem_moveToEnd] at mem
      exact ⟨mem, id⟩
  · exact refl s

theorem serveCached (s : State) (key : Key) (loaded : Loaded) (now : Nat) :
    Shrinks s ((s.touch key now).serve key loaded) :=
  have touched := touch s key now
  ⟨touched.maxSize, touched.building, touched.size, touched.tracked, touched.configured⟩

theorem store (s : State) (key : Key) (config : ConfigRef) : Shrinks s (s.store key config) where
  maxSize := rfl
  building := id
  size := le_rfl
  tracked := id
  configured := by
    intro key' cached
    refine ⟨cached, fun configured => ?_⟩
    simp only [State.store, OrderedDict.mem_setItem]
    tauto

theorem unregisterByKey (s : State) (key : Key) : Shrinks s (s.unregisterByKey key) where
  maxSize := rfl
  building := id
  size := (dropProcessor s key).size
  tracked := (dropProcessor s key).tracked
  configured := by
    intro key' cached
    simp only [State.unregisterByKey, State.dropProcessor, OrderedDict.mem_pop] at cached ⊢
    exact ⟨cached.2, fun configured => configured.imp_right fun mem => ⟨cached.1, mem⟩⟩

/-- `unregister_dynamic_processor` and the rollback of a registration. -/
theorem unregisterPresent (s : State) (key : Key) :
    Shrinks s (if key ∈ s.dynamicConfigs then s.unregisterByKey key else s) := by
  split_ifs
  · exact unregisterByKey s key
  · exact refl s

theorem syncModel (s : State) (config : ConfigRef) : Shrinks s (s.syncModel config) := by
  unfold State.syncModel
  split
  · exact store s config.key config
  · split_ifs
    · exact refl s
    · exact (store s config.key config).trans (dropProcessor _ config.key)

theorem fullSync (s : State) (dbModels : List ConfigRef) : Shrinks s (s.fullSync dbModels) :=
  (foldl syncModel dbModels s).trans (foldl unregisterByKey _ _)

theorem registerStatic (s : State) (r : State.Registration) (resolve : String → Option String)
    (address now : Nat) : Shrinks s (s.registerStatic r resolve address now) := by
  unfold State.registerStatic
  split
  · refine ⟨rfl, id, le_rfl, id, fun key' cached => ⟨cached, fun configured => ?_⟩⟩
    simp only [OrderedDict.mem_setItem]
    tauto
  · exact refl s

theorem registerDynamic (s : State) (r : State.Registration) (resolve : String → Option String)
    (persistToDb : Bool) (address now : Nat) :
    Shrinks s (s.registerDynamic r resolve persistToDb address now) := by
  unfold State.registerDynamic
  split
  · rename_i config accepted
    have stored := store s config.key ⟨address, config⟩
    exact ⟨rfl, id, le_rfl, id, stored.configured⟩
  · exact refl s

theorem loadProcessor (s : State) (key : Key) (now : Nat) :
    Shrinks s (s.loadProcessor key now) := by
  unfold State.loadProcessor
  split
  · exact serveCached s key _ now
  · split
    · exact ⟨rfl, id, le_rfl, id, fun _ cached => ⟨cached, id⟩⟩
    · exact refl s

theorem getProcessorAsync (s : State) (key : Key) (now : Nat) :
    Shrinks s (s.getProcessorAsync key now) := by
  unfold State.getProcessorAsync
  split
  · exact serveCached s key _ now
  · exact loadProcessor s key now

theorem tryGetOrSyncFromDb (s : State) (key : Key) (now : Nat) :
    Shrinks s (s.tryGetOrSyncFromDb key now) := by
  unfold State.tryGetOrSyncFromDb
  split
  · exact serveCached s key _ now
  · split
    · exact loadProcessor s key now
    · exact ⟨rfl, id, le_rfl, id, fun _ cached => ⟨cached, id⟩⟩

theorem fetched (s : State) (key : Key) (row : Option ConfigRef) (now : Nat) :
    Shrinks s (s.fetched key row now) := by
  cases row with
  | none => exact refl s
  | some config => exact (store s key config).trans (loadProcessor _ key now)

theorem evictOne (s : State) : Shrinks s s.evictOne := by
  unfold State.evictOne
  split
  · exact dropProcessor s _
  · exact refl s

theorem evictWhileFull (fuel : Nat) (s : State) : Shrinks s (s.evictWhileFull fuel) := by
  induction fuel generalizing s with
  | zero => exact refl s
  | succ fuel ih =>
    unfold State.evictWhileFull
    split_ifs
    · exact (evictOne s).trans (ih s.evictOne)
    · exact refl s

theorem evictIdleProcessors (s : State) (now : Nat) : Shrinks s (s.evictIdleProcessors now) := by
  unfold State.evictIdleProcessors
  simp only
  split_ifs
  · exact refl s
  · exact foldl dropProcessor _ s

theorem clearCache (s : State) : Shrinks s s.clearCache where
  maxSize := rfl
  building := id
  size := Nat.zero_le _
  tracked := by
    intro _ key
    exact iff_of_false (AList.notMem_empty key) (AList.notMem_empty key)
  configured := by
    intro key cached
    exact absurd cached (AList.notMem_empty key)

/-- A suspended call that leaves, or joins, a list of waiting calls. -/
theorem resume (s : State) (persisting fetching : List Key) (waiting : List Load) :
    Shrinks s { s with persisting := persisting, fetching := fetching, waiting := waiting } :=
  ⟨rfl, id, le_rfl, id, fun _ cached => ⟨cached, id⟩⟩

/-- `_load_lock` is released. -/
theorem released (s : State) : Shrinks s { s with building := none } :=
  ⟨rfl, fun busy => absurd rfl busy, le_rfl, id, fun _ cached => ⟨cached, id⟩⟩

end Shrinks

theorem initial (cacheMaxSize idleTimeout : Nat) :
    Bookkeeping cacheMaxSize (initial cacheMaxSize idleTimeout) where
  bounded := Nat.zero_le _
  tracked := by
    intro key
    exact iff_of_false (AList.notMem_empty key) (AList.notMem_empty key)
  configured := by
    intro key cached
    exact absurd cached (AList.notMem_empty key)
  maxSize := rfl
  room := fun busy => absurd rfl busy

theorem configured_of_effective {config : ConfigRef} (h : s.effective key = some config) :
    key ∈ s.configConfigs ∨ key ∈ s.dynamicConfigs := by
  by_contra none
  rw [not_or, ← OrderedDict.get_eq_none, ← OrderedDict.get_eq_none] at none
  rw [State.effective, none.1, none.2] at h
  cases h

theorem size_evictOne (s : State) :
    OrderedDict.size s.evictOne.processorCache = OrderedDict.size s.processorCache - 1 := by
  unfold State.evictOne
  rcases OrderedDict.first_cases s.processorCache with ⟨none, empty⟩ | ⟨key, v, some, mem⟩
  · simp only [none, empty]
  · simp only [some, State.dropProcessor, OrderedDict.size_pop, if_pos mem]

/-- The eviction loop frees a slot unless the cache may hold nothing. -/
theorem size_evictWhileFull (positive : 0 < s.cacheMaxSize) (fuel : Nat)
    (enough : OrderedDict.size s.processorCache ≤ fuel) :
    OrderedDict.size (s.evictWhileFull fuel).processorCache < s.cacheMaxSize := by
  induction fuel generalizing s with
  | zero =>
    have empty : OrderedDict.size s.processorCache = 0 := by omega
    rw [State.evictWhileFull, empty]
    exact positive
  | succ fuel ih =>
    unfold State.evictWhileFull
    split_ifs with full
    · have same := (Shrinks.evictOne s).maxSize
      have smaller := size_evictOne s
      rw [← same]
      exact ih (by rw [same]; exact positive) (by omega)
    · omega

theorem lockAcquired (h : Bookkeeping n s) (load : Load) (now : Nat)
    (ends : ¬(s.cacheMaxSize = 0 ∧ load.key ∉ s.processorCache)) :
    Bookkeeping n (s.lockAcquired load now) := by
  unfold State.lockAcquired
  split
  · exact h.shrinks (Shrinks.serveCached s load.key _ now)
  · rename_i absent
    have uncached := OrderedDict.get_eq_none.mp absent
    have positive : 0 < s.cacheMaxSize := by
      by_contra zero
      exact ends ⟨by omega, uncached⟩
    have evicted := h.shrinks (Shrinks.evictWhileFull (OrderedDict.size s.processorCache) s)
    have free := size_evictWhileFull positive _ le_rfl
    rw [h.maxSize] at free
    exact ⟨⟨evicted.bounded, evicted.tracked, evicted.configured⟩, evicted.maxSize, fun _ => free⟩

/-- The new entry takes the slot that was kept free during the build. -/
theorem builtProcessor (h : Bookkeeping n s) {load : Load} (busy : s.building = some load)
    (loaded : Loaded) (now : Nat) : Bookkeeping n (s.builtProcessor load loaded now) := by
  have free := h.room (by simp [busy])
  have released := h.shrinks (Shrinks.released s)
  unfold State.builtProcessor
  simp only
  split
  · exact released
  · rename_i current effective
    split_ifs
    · have grown := OrderedDict.size_setItem_le s.processorCache load.key loaded
      refine ⟨⟨?_, ?_, ?_⟩, h.maxSize, fun busy => absurd rfl busy⟩
      · change OrderedDict.size (s.processorCache.setItem load.key loaded) ≤ n
        omega
      · intro key
        simp only [State.serve, OrderedDict.mem_setItem, h.tracked]
      · intro key cached
        simp only [State.serve, OrderedDict.mem_setItem] at cached
        rcases cached with rfl | old
        · exact configured_of_effective effective
        · exact h.configured key old
    · exact released

end Bookkeeping

open Bookkeeping in
theorem Bookkeeping.step {n : Nat} {s s' : State} {a : Action} (h : Bookkeeping n s)
    (step : Step s a s') : Bookkeeping n s' := by
  cases step with
  | registerStatic r resolve address now =>
    exact h.shrinks (.registerStatic s r resolve address now)
  | registerDynamic r resolve persistToDb address now =>
    exact h.shrinks (.registerDynamic s r resolve persistToDb address now)
  | persistReturned i key => exact h.shrinks (.resume s _ _ _)
  | persistFailed i key =>
    exact h.shrinks ((Shrinks.resume s _ _ _).trans (.unregisterPresent _ key))
  | unregisterDynamic key => exact h.shrinks (.unregisterPresent s key)
  | registerFromConfig config => exact h.shrinks (.store s config.key config)
  | unregisterByKey key => exact h.shrinks (.unregisterByKey s key)
  | fullSync dbModels => exact h.shrinks (.fullSync s dbModels)
  | getProcessor key now => exact h.shrinks (.getProcessorAsync s key now)
  | tryGetOrSync key now => exact h.shrinks (.tryGetOrSyncFromDb s key now)
  | fetchReturned i row now key =>
    exact h.shrinks ((Shrinks.resume s _ _ _).trans (.fetched _ key row now))
  | fetchFailed i key => exact h.shrinks (.resume s _ _ _)
  | lockAcquired i now l free waits endless =>
    have resumed := h.shrinks (.resume s s.persisting s.fetching (s.waiting.eraseIdx i))
    exact resumed.lockAcquired l now endless
  | lockWaitCancelled i l => exact h.shrinks (.resume s _ _ _)
  | buildReturned now l loaded busy => exact h.builtProcessor busy loaded now
  | buildFailed l => exact h.shrinks (.released s)
  | evictIdle now => exact h.shrinks (.evictIdleProcessors s now)
  | clearCache => exact h.shrinks (.clearCache s)

/-- In every state of every run the cache is within its size, its keys are those
with an access time, and each of them has a configuration. -/
theorem run_bookkept (cacheMaxSize idleTimeout : Nat) (as : List Action) :
    machine.Along (Bookkept cacheMaxSize) (initial cacheMaxSize idleTimeout) as :=
  (Machine.along_of_step (fun _ _ _ h taken => h.step (step_cases taken))
    (Bookkeeping.initial cacheMaxSize idleTimeout) as).mono fun _ h => h.toBookkept

end TrajProxy.Manager
