import TrajProxy.Manager.Config
import TrajProxy.Library.Transition

/-! `ProcessorManager` as a machine whose steps are the stretches between two
suspension points. `_release_processor_async` contains no `await`, so
`full_sync`, the unregistrations and the evictions run in one step; a DB write
of `register_dynamic_processor`, a `get_by_key`, the wait for `_load_lock` and
`_build_processor` under the lock are the suspensions, kept in `persisting`,
`fetching`, `waiting` and `building`.
`served` logs each Processor returned to a caller with the configuration
effective at that moment. -/

namespace TrajProxy.Manager
open Transition

/-- A suspended `_load_processor`: its key and the local `config`. -/
structure Load where
  key : Key
  config : ConfigRef
  deriving DecidableEq

structure Served where
  key : Key
  processor : Loaded
  effective : Option ConfigRef

structure State where
  configConfigs : OrderedDict Key ConfigRef
  dynamicConfigs : OrderedDict Key ConfigRef
  processorCache : OrderedDict Key Loaded
  lastAccessTime : OrderedDict Key Nat
  cacheMaxSize : Nat
  idleTimeout : Nat
  persisting : List Key
  fetching : List Key
  waiting : List Load
  building : Option Load
  served : List Served

namespace State

/-- `self._config_configs.get(key) or self._dynamic_configs.get(key)` -/
def effective (s : State) (key : Key) : Option ConfigRef :=
  (s.configConfigs.get key).or (s.dynamicConfigs.get key)

/-- The Processor of `key` and its access time leave the cache. -/
def dropProcessor (s : State) (key : Key) : State :=
  { s with
    processorCache := s.processorCache.pop key
    lastAccessTime := s.lastAccessTime.pop key }

/-- `_touch` -/
def touch (s : State) (key : Key) (now : Nat) : State :=
  if key ∈ s.processorCache then
    { s with
      processorCache := s.processorCache.moveToEnd key
      lastAccessTime := s.lastAccessTime.setItem key now }
  else s

/-- `_evict_one` -/
def evictOne (s : State) : State :=
  match s.processorCache.first with
  | some (key, _) => s.dropProcessor key
  | none => s

/-- `while len(cache) >= max_size: _evict_one()`, at most `fuel` rounds. -/
def evictWhileFull : Nat → State → State
  | 0, s => s
  | fuel + 1, s =>
    if s.cacheMaxSize ≤ OrderedDict.size s.processorCache then evictWhileFull fuel s.evictOne else s

def serve (s : State) (key : Key) (processor : Loaded) : State :=
  { s with served := ⟨key, processor, s.effective key⟩ :: s.served }

/-- The entry of `_load_processor` up to `async with self._load_lock`. -/
def loadProcessor (s : State) (key : Key) (now : Nat) : State :=
  match s.processorCache.get key with
  | some processor => (s.touch key now).serve key processor
  | none =>
    match s.effective key with
    | some config => { s with waiting := s.waiting ++ [⟨key, config⟩] }
    | none => s

/-- `_load_processor` under the lock, up to `_build_processor`. -/
def lockAcquired (s : State) (load : Load) (now : Nat) : State :=
  match s.processorCache.get load.key with
  | some processor => (s.touch load.key now).serve load.key processor
  | none =>
    let s := s.evictWhileFull (OrderedDict.size s.processorCache)
    { s with building := some load }

/-- `_load_processor` after `_build_processor` has returned. -/
def builtProcessor (s : State) (load : Load) (processor : Loaded) (now : Nat) : State :=
  let s := { s with building := none }
  match s.effective load.key with
  | none => s
  | some current =>
    if current = load.config then
      { s with
        processorCache := s.processorCache.setItem load.key processor
        lastAccessTime := s.lastAccessTime.setItem load.key now }.serve load.key processor
    else s

/-- `register_from_config` -/
def registerFromConfig (s : State) (config : ConfigRef) : State :=
  { s with dynamicConfigs := s.dynamicConfigs.setItem config.key config }

/-- `unregister_by_key` -/
def unregisterByKey (s : State) (key : Key) : State :=
  { s with dynamicConfigs := s.dynamicConfigs.pop key }.dropProcessor key

/-- One round of the first loop of `full_sync`. -/
def syncModel (s : State) (config : ConfigRef) : State :=
  match s.dynamicConfigs.get config.key with
  | none => s.registerFromConfig config
  | some existing =>
    if existing.config.SameFields config.config then s
    else (s.registerFromConfig config).dropProcessor config.key

/-- `full_sync` -/
def fullSync (s : State) (dbModels : List ConfigRef) : State :=
  let toRemove := s.dynamicConfigs.keys.filter (· ∉ dbModels.map ConfigRef.key)
  toRemove.foldl unregisterByKey (dbModels.foldl syncModel s)

/-- Arguments of the two public registrations. -/
structure Registration where
  modelName : String
  url : String
  apiKey : String
  tokenizerPath : Option String
  tokenInTokenOut : Bool
  runId : String
  toolParser : String
  reasoningParser : String

/-- The checks before a registration stores anything. `resolve` is
`_resolve_tokenizer_path`, which raises when the path does not exist. -/
def newConfig (s : State) (r : Registration) (resolve : String → Option String) (now : Nat) :
    Option ModelConfig :=
  let key := (r.runId, r.modelName)
  if key ∈ s.configConfigs ∨ key ∈ s.dynamicConfigs then none
  else if r.tokenInTokenOut && blank r.tokenizerPath then none
  else
    let config (path : Option String) : ModelConfig :=
      { url := r.url, apiKey := r.apiKey, tokenizerPath := path, runId := r.runId
        modelName := r.modelName, tokenInTokenOut := r.tokenInTokenOut
        toolParser := r.toolParser, reasoningParser := r.reasoningParser
        updatedAt := some now }
    match r.tokenInTokenOut, r.tokenizerPath with
    | true, some path => (resolve path).map fun path => config (some path)
    | _, _ => some (config none)

/-- `register_static_processor` -/
def registerStatic (s : State) (r : Registration) (resolve : String → Option String)
    (address now : Nat) : State :=
  match s.newConfig r resolve now with
  | some config =>
    { s with configConfigs := s.configConfigs.setItem config.key ⟨address, config⟩ }
  | none => s

/-- `register_dynamic_processor` up to the DB write. -/
def registerDynamic (s : State) (r : Registration) (resolve : String → Option String)
    (persistToDb : Bool) (address now : Nat) : State :=
  match s.newConfig r resolve now with
  | some config =>
    { s.registerFromConfig ⟨address, config⟩ with
      persisting := if persistToDb then s.persisting ++ [config.key] else s.persisting }
  | none => s

/-- The rollback of `register_dynamic_processor`; `del` of a missing key raises
before the cache is cleaned. -/
def rollbackRegistration (s : State) (key : Key) : State :=
  if key ∈ s.dynamicConfigs then s.unregisterByKey key else s

/-- `unregister_dynamic_processor` up to the DB write, which changes nothing
here. -/
def unregisterDynamic (s : State) (key : Key) : State :=
  if key ∈ s.dynamicConfigs then s.unregisterByKey key else s

/-- `get_processor_async` -/
def getProcessorAsync (s : State) (key : Key) (now : Nat) : State :=
  match s.processorCache.get key with
  | some processor => (s.touch key now).serve key processor
  | none => s.loadProcessor key now

/-- `try_get_or_sync_from_db` up to `get_by_key`. -/
def tryGetOrSyncFromDb (s : State) (key : Key) (now : Nat) : State :=
  match s.processorCache.get key with
  | some processor => (s.touch key now).serve key processor
  | none =>
    match s.effective key with
    | some _ => s.loadProcessor key now
    | none => { s with fetching := s.fetching ++ [key] }

/-- `try_get_or_sync_from_db` after `get_by_key`. -/
def fetched (s : State) (key : Key) (row : Option ConfigRef) (now : Nat) : State :=
  match row with
  | none => s
  | some config =>
    { s with dynamicConfigs := s.dynamicConfigs.setItem key config }.loadProcessor key now

/-- `_evict_idle_processors` -/
def evictIdleProcessors (s : State) (now : Nat) : State :=
  let keysToEvict := s.lastAccessTime.entries.filterMap fun e =>
    if s.idleTimeout < now - e.2 then some e.1 else none
  if OrderedDict.size s.processorCache = 0 then s else keysToEvict.foldl dropProcessor s

/-- `clear_cache` -/
def clearCache (s : State) : State := { s with processorCache := ∅, lastAccessTime := ∅ }

end State

inductive Action
  | registerStatic (r : State.Registration) (resolve : String → Option String) (address now : Nat)
  | registerDynamic (r : State.Registration) (resolve : String → Option String)
      (persistToDb : Bool) (address now : Nat)
  | persistReturned (i : Nat)
  | persistFailed (i : Nat)
  | unregisterDynamic (key : Key)
  | registerFromConfig (config : ConfigRef)
  | unregisterByKey (key : Key)
  | fullSync (dbModels : List ConfigRef)
  | getProcessor (key : Key) (now : Nat)
  | tryGetOrSync (key : Key) (now : Nat)
  | fetchReturned (i : Nat) (row : Option ConfigRef) (now : Nat)
  | fetchFailed (i : Nat)
  | lockAcquired (i : Nat) (now : Nat)
  | lockWaitCancelled (i : Nat)
  | buildReturned (now : Nat)
  | buildFailed
  | evictIdle (now : Nat)
  | clearCache

open State in
/-- Which suspended call moves, what the DB answered and what the clock shows
is in the action. A cancelled wait is its `Failed` step, except that a
cancelled DB write is not rolled back. -/
def step (s : State) : Action → Option State
  | .registerStatic r resolve address now => some (s.registerStatic r resolve address now)
  | .registerDynamic r resolve persistToDb address now =>
    some (s.registerDynamic r resolve persistToDb address now)
  | .persistReturned i =>
    s.persisting[i]?.map fun _ => { s with persisting := s.persisting.eraseIdx i }
  | .persistFailed i =>
    s.persisting[i]?.map fun key =>
      { s with persisting := s.persisting.eraseIdx i }.rollbackRegistration key
  | .unregisterDynamic key => some (s.unregisterDynamic key)
  | .registerFromConfig config => some (s.registerFromConfig config)
  | .unregisterByKey key => some (s.unregisterByKey key)
  | .fullSync dbModels => some (s.fullSync dbModels)
  | .getProcessor key now => some (s.getProcessorAsync key now)
  | .tryGetOrSync key now => some (s.tryGetOrSyncFromDb key now)
  | .fetchReturned i row now =>
    s.fetching[i]?.map fun key =>
      { s with fetching := s.fetching.eraseIdx i }.fetched key row now
  | .fetchFailed i =>
    s.fetching[i]?.map fun _ => { s with fetching := s.fetching.eraseIdx i }
  | .lockAcquired i now =>
    match s.building, s.waiting[i]? with
    | none, some load =>
      -- the eviction loop does not end when no size is allowed
      if s.cacheMaxSize = 0 ∧ load.key ∉ s.processorCache then none
      else some ({ s with waiting := s.waiting.eraseIdx i }.lockAcquired load now)
    | _, _ => none
  | .lockWaitCancelled i =>
    s.waiting[i]?.map fun _ => { s with waiting := s.waiting.eraseIdx i }
  | .buildReturned now =>
    match s.building with
    | some l => (load l.config.config).map fun processor => s.builtProcessor l processor now
    | none => none
  | .buildFailed => s.building.map fun _ => { s with building := none }
  | .evictIdle now => some (s.evictIdleProcessors now)
  | .clearCache => some s.clearCache

/-- `ProcessorManager.__init__` -/
def initial (cacheMaxSize idleTimeout : Nat) : State where
  configConfigs := ∅
  dynamicConfigs := ∅
  processorCache := ∅
  lastAccessTime := ∅
  cacheMaxSize := cacheMaxSize
  idleTimeout := idleTimeout
  persisting := []
  fetching := []
  waiting := []
  building := none
  served := []

def machine : Machine State Action where
  step := step

open State in
/-- The effect of each action. -/
inductive Step (s : State) : Action → State → Prop
  | registerStatic (r : Registration) (resolve : String → Option String) (address now : Nat) :
      Step s (.registerStatic r resolve address now) (s.registerStatic r resolve address now)
  | registerDynamic (r : Registration) (resolve : String → Option String) (persistToDb : Bool)
      (address now : Nat) :
      Step s (.registerDynamic r resolve persistToDb address now)
        (s.registerDynamic r resolve persistToDb address now)
  | persistReturned (i : Nat) (key : Key) :
      s.persisting[i]? = some key →
      Step s (.persistReturned i) { s with persisting := s.persisting.eraseIdx i }
  | persistFailed (i : Nat) (key : Key) :
      s.persisting[i]? = some key →
      Step s (.persistFailed i)
        ({ s with persisting := s.persisting.eraseIdx i }.rollbackRegistration key)
  | unregisterDynamic (key : Key) : Step s (.unregisterDynamic key) (s.unregisterDynamic key)
  | registerFromConfig (config : ConfigRef) :
      Step s (.registerFromConfig config) (s.registerFromConfig config)
  | unregisterByKey (key : Key) : Step s (.unregisterByKey key) (s.unregisterByKey key)
  | fullSync (dbModels : List ConfigRef) : Step s (.fullSync dbModels) (s.fullSync dbModels)
  | getProcessor (key : Key) (now : Nat) :
      Step s (.getProcessor key now) (s.getProcessorAsync key now)
  | tryGetOrSync (key : Key) (now : Nat) :
      Step s (.tryGetOrSync key now) (s.tryGetOrSyncFromDb key now)
  | fetchReturned (i : Nat) (row : Option ConfigRef) (now : Nat) (key : Key) :
      s.fetching[i]? = some key →
      Step s (.fetchReturned i row now)
        ({ s with fetching := s.fetching.eraseIdx i }.fetched key row now)
  | fetchFailed (i : Nat) (key : Key) :
      s.fetching[i]? = some key →
      Step s (.fetchFailed i) { s with fetching := s.fetching.eraseIdx i }
  | lockAcquired (i now : Nat) (l : Load) :
      s.building = none → s.waiting[i]? = some l →
      ¬(s.cacheMaxSize = 0 ∧ l.key ∉ s.processorCache) →
      Step s (.lockAcquired i now)
        ({ s with waiting := s.waiting.eraseIdx i }.lockAcquired l now)
  | lockWaitCancelled (i : Nat) (l : Load) :
      s.waiting[i]? = some l →
      Step s (.lockWaitCancelled i) { s with waiting := s.waiting.eraseIdx i }
  | buildReturned (now : Nat) (l : Load) (loaded : Loaded) :
      s.building = some l → load l.config.config = some loaded →
      Step s (.buildReturned now) (s.builtProcessor l loaded now)
  | buildFailed (l : Load) : s.building = some l → Step s .buildFailed { s with building := none }
  | evictIdle (now : Nat) : Step s (.evictIdle now) (s.evictIdleProcessors now)
  | clearCache : Step s .clearCache s.clearCache

theorem step_cases {s s' : State} {a : Action} (taken : machine.step s a = some s') :
    Step s a s' := by
  change step s a = some s' at taken
  cases a with
  | registerStatic r resolve address now =>
    obtain rfl := Option.some.inj taken
    exact .registerStatic r resolve address now
  | registerDynamic r resolve persistToDb address now =>
    obtain rfl := Option.some.inj taken
    exact .registerDynamic r resolve persistToDb address now
  | persistReturned i =>
    obtain ⟨key, waits, rfl⟩ := Option.map_eq_some_iff.mp taken
    exact .persistReturned i key waits
  | persistFailed i =>
    obtain ⟨key, waits, rfl⟩ := Option.map_eq_some_iff.mp taken
    exact .persistFailed i key waits
  | unregisterDynamic key =>
    obtain rfl := Option.some.inj taken
    exact .unregisterDynamic key
  | registerFromConfig config =>
    obtain rfl := Option.some.inj taken
    exact .registerFromConfig config
  | unregisterByKey key =>
    obtain rfl := Option.some.inj taken
    exact .unregisterByKey key
  | fullSync dbModels =>
    obtain rfl := Option.some.inj taken
    exact .fullSync dbModels
  | getProcessor key now =>
    obtain rfl := Option.some.inj taken
    exact .getProcessor key now
  | tryGetOrSync key now =>
    obtain rfl := Option.some.inj taken
    exact .tryGetOrSync key now
  | fetchReturned i row now =>
    obtain ⟨key, waits, rfl⟩ := Option.map_eq_some_iff.mp taken
    exact .fetchReturned i row now key waits
  | fetchFailed i =>
    obtain ⟨key, waits, rfl⟩ := Option.map_eq_some_iff.mp taken
    exact .fetchFailed i key waits
  | lockAcquired i now =>
    rw [step] at taken
    split at taken
    · rename_i l free waits
      split_ifs at taken with endless
      obtain rfl := Option.some.inj taken
      exact .lockAcquired i now l free waits endless
    · cases taken
  | lockWaitCancelled i =>
    obtain ⟨l, waits, rfl⟩ := Option.map_eq_some_iff.mp taken
    exact .lockWaitCancelled i l waits
  | buildReturned now =>
    rw [step] at taken
    split at taken
    · rename_i l busy
      obtain ⟨loaded, built, rfl⟩ := Option.map_eq_some_iff.mp taken
      exact .buildReturned now l loaded busy built
    · cases taken
  | buildFailed =>
    obtain ⟨l, busy, rfl⟩ := Option.map_eq_some_iff.mp taken
    exact .buildFailed l busy
  | evictIdle now =>
    obtain rfl := Option.some.inj taken
    exact .evictIdle now
  | clearCache =>
    obtain rfl := Option.some.inj taken
    exact .clearCache

end TrajProxy.Manager
