import TrajProxy.Manager.State

/-! `ProcessorManager` together with its `TokenizerCache`: every way a Processor
leaves the cache also releases its tokenizer, and `_build_processor` is taken
apart into the wait for the tokenizer and the constructor of `Processor`, which
may raise. The load lock of the manager is held throughout, so there is one
construction at a time. -/

namespace TrajProxy.Manager
open Transition

structure TokenizerCache (τ : Type) where
  cache : OrderedDict String τ
  refCounts : OrderedDict String Nat
  /-- A `del` or `+= 1` met a missing key. -/
  keyError : Bool

namespace TokenizerCache

variable {τ : Type}

/-- The cached branch of `get_or_load`. -/
def acquire (t : TokenizerCache τ) (tokenizerPath : String) : TokenizerCache τ :=
  match t.refCounts.get tokenizerPath with
  | some n => { t with refCounts := t.refCounts.setItem tokenizerPath (n + 1) }
  | none => { t with keyError := true }

/-- `get_or_load` after `AutoTokenizer.from_pretrained` has returned. -/
def store (t : TokenizerCache τ) (tokenizerPath : String) (tokenizer : τ) : TokenizerCache τ :=
  { t with
    cache := t.cache.setItem tokenizerPath tokenizer
    refCounts := t.refCounts.setItem tokenizerPath 1 }

/-- `release` -/
def release (t : TokenizerCache τ) (tokenizerPath : String) : TokenizerCache τ :=
  match t.refCounts.get tokenizerPath with
  | none => t
  | some n =>
    if n - 1 = 0 then
      { cache := t.cache.pop tokenizerPath
        refCounts := t.refCounts.pop tokenizerPath
        keyError := t.keyError || tokenizerPath ∉ t.cache }
    else { t with refCounts := t.refCounts.setItem tokenizerPath (n - 1) }

/-- `_ref_counts.get(path, 0)` -/
def refs (t : TokenizerCache τ) (tokenizerPath : String) : Nat :=
  (t.refCounts.get tokenizerPath).getD 0

end TokenizerCache

/-- The path whose tokenizer `_create_processor` takes from the cache. -/
def ModelConfig.sharedTokenizer (config : ModelConfig) : Option String :=
  if config.tokenInTokenOut && !blank config.tokenizerPath then config.tokenizerPath else none

/-- The path `_release_processor_async` releases. -/
def Processor.sharedTokenizer (processor : Processor) : Option String :=
  if !blank processor.tokenizerPath && processor.tokenInTokenOut then processor.tokenizerPath
  else none

theorem Loaded.sharedTokenizer_eq (loaded : Loaded) :
    loaded.processor.sharedTokenizer = loaded.config.sharedTokenizer := by
  have built := loaded.built
  unfold buildProcessor at built
  split_ifs at built
  unfold Processor.sharedTokenizer ModelConfig.sharedTokenizer
  rw [← Option.some.inj built, Bool.and_comm]

/-- Where `_build_processor` stands. -/
inductive Stage
  | start
  /-- in the thread of `AutoTokenizer.from_pretrained` -/
  | loading (tokenizerPath : String)
  /-- in the constructor of `Processor`, with its tokenizer -/
  | acquired (tokenizerPath : String)
  deriving DecidableEq

/-- `clock` is `time.monotonic()`; `leaked` logs the tokenizers whose Processor
could not be constructed. -/
structure Pool (τ : Type) where
  manager : State
  tokenizers : TokenizerCache τ
  stage : Stage
  clock : Nat
  leaked : List String

namespace Pool

variable {τ : Type}

def releaseProcessor (t : TokenizerCache τ) (processor : Processor) : TokenizerCache τ :=
  match processor.sharedTokenizer with
  | some path => t.release path
  | none => t

/-- `_release_processor_async` -/
def releaseProcessorAsync (p : Pool τ) (processor : Loaded) : Pool τ :=
  { p with tokenizers := releaseProcessor p.tokenizers processor.processor }

/-- A Processor leaves the cache and is released. -/
def dropProcessor (p : Pool τ) (key : Key) : Pool τ :=
  let dropped := { p with manager := p.manager.dropProcessor key }
  match p.manager.processorCache.get key with
  | some removed => dropped.releaseProcessorAsync removed
  | none => dropped

/-- `_evict_one` -/
def evictOne (p : Pool τ) : Pool τ :=
  match p.manager.processorCache.first with
  | some (evictedKey, _) => p.dropProcessor evictedKey
  | none => p

def evictWhileFull : Nat → Pool τ → Pool τ
  | 0, p => p
  | fuel + 1, p =>
    if p.manager.cacheMaxSize ≤ OrderedDict.size p.manager.processorCache then
      evictWhileFull fuel p.evictOne
    else p

/-- `_load_processor` under the lock, up to `_build_processor`. -/
def lockAcquired (p : Pool τ) (load : Load) (now : Nat) : Pool τ :=
  match p.manager.processorCache.get load.key with
  | some _ => { p with manager := p.manager.lockAcquired load now }
  | none =>
    let p := p.evictWhileFull (OrderedDict.size p.manager.processorCache)
    { p with manager := { p.manager with building := some load }, stage := .start }

/-- `unregister_by_key` -/
def unregisterByKey (p : Pool τ) (key : Key) : Pool τ :=
  { p with manager := { p.manager with
    dynamicConfigs := p.manager.dynamicConfigs.pop key } }.dropProcessor key

/-- One round of the first loop of `full_sync`. -/
def syncModel (p : Pool τ) (config : ConfigRef) : Pool τ :=
  let stored := { p with manager := p.manager.registerFromConfig config }
  match p.manager.dynamicConfigs.get config.key with
  | none => stored
  | some existing =>
    if existing.config.SameFields config.config then p else stored.dropProcessor config.key

/-- `full_sync` -/
def fullSync (p : Pool τ) (dbModels : List ConfigRef) : Pool τ :=
  let toRemove := p.manager.dynamicConfigs.keys.filter (· ∉ dbModels.map ConfigRef.key)
  toRemove.foldl unregisterByKey (dbModels.foldl syncModel p)

/-- `unregister_dynamic_processor` and the rollback of a registration. -/
def unregisterPresent (p : Pool τ) (key : Key) : Pool τ :=
  if key ∈ p.manager.dynamicConfigs then p.unregisterByKey key else p

/-- `_evict_idle_processors` -/
def evictIdleProcessors (p : Pool τ) (now : Nat) : Pool τ :=
  let keysToEvict := p.manager.lastAccessTime.entries.filterMap fun e =>
    if p.manager.idleTimeout < now - e.2 then some e.1 else none
  if OrderedDict.size p.manager.processorCache = 0 then p else keysToEvict.foldl dropProcessor p

/-- `clear_cache` -/
def clearCache (p : Pool τ) : Pool τ :=
  { p.manager.processorCache.values.foldl releaseProcessorAsync p with
    manager := p.manager.clearCache }

/-- `get_or_load`, up to its result or to the wait for the thread that loads. -/
def getOrLoad (p : Pool τ) (tokenizerPath : String) : Pool τ :=
  if tokenizerPath ∈ p.tokenizers.cache then
    { p with tokenizers := p.tokenizers.acquire tokenizerPath, stage := .acquired tokenizerPath }
  else { p with stage := .loading tokenizerPath }

/-- `_load_processor` after `_build_processor` has returned. -/
def builtProcessor (p : Pool τ) (load : Load) (processor : Loaded) (now : Nat) : Pool τ :=
  let p' := { p with manager := p.manager.builtProcessor load processor now, stage := .start }
  if p.manager.effective load.key = some load.config then p' else p'.releaseProcessorAsync processor

end Pool

/-- `manager` is an action in which no tokenizer is waited for. -/
inductive PoolAction (τ : Type)
  | manager (action : Action)
  | getOrLoad
  | tokenizerLoaded (tokenizer : τ)
  | tokenizerFailed
  | constructed (now : Nat)
  | constructionRaised

/-- What the clock shows. -/
def Action.now : Action → Option Nat
  | .getProcessor _ now => some now
  | .tryGetOrSync _ now => some now
  | .fetchReturned _ _ now => some now
  | .lockAcquired _ now => some now
  | .buildReturned now => some now
  | .evictIdle now => some now
  | _ => none

def PoolAction.now {τ : Type} : PoolAction τ → Option Nat
  | .manager action => action.now
  | .constructed now => some now
  | _ => none

namespace Pool

variable {τ : Type}

/-- The load whose Processor is constructed: it has its tokenizer or needs none. -/
def constructing (p : Pool τ) : Option Load :=
  p.manager.building.filter fun load =>
    match load.config.config.sharedTokenizer, p.stage with
    | none, .start => true
    | some path, .acquired acquired => path = acquired
    | _, _ => false

def managerStep (p : Pool τ) (action : Action) : Option (Pool τ) :=
  (Manager.step p.manager action).bind fun s =>
    match action with
    | .persistFailed i =>
      p.manager.persisting[i]?.map fun key =>
        { p with manager := { p.manager with
          persisting := p.manager.persisting.eraseIdx i } }.unregisterPresent key
    | .unregisterDynamic key => some (p.unregisterPresent key)
    | .unregisterByKey key => some (p.unregisterByKey key)
    | .fullSync dbModels => some (p.fullSync dbModels)
    | .lockAcquired i now =>
      p.manager.waiting[i]?.map fun load =>
        { p with manager := { p.manager with
          waiting := p.manager.waiting.eraseIdx i } }.lockAcquired load now
    | .evictIdle now => some (p.evictIdleProcessors now)
    | .clearCache => some p.clearCache
    | .buildReturned _ | .buildFailed => none
    | _ => some { p with manager := s }

/-- The steps of the manager, with `buildReturned` and `buildFailed` replaced by
those of the construction. -/
def act (p : Pool τ) : PoolAction τ → Option (Pool τ)
  | .manager action => p.managerStep action
  | .getOrLoad =>
    match p.manager.building, p.stage with
    | some load, .start => load.config.config.sharedTokenizer.map p.getOrLoad
    | _, _ => none
  | .tokenizerLoaded tokenizer =>
    match p.stage with
    | .loading path =>
      some { p with tokenizers := p.tokenizers.store path tokenizer, stage := .acquired path }
    | _ => none
  | .tokenizerFailed =>
    match p.manager.building, p.stage with
    | some _, .loading _ =>
      some { p with manager := { p.manager with building := none }, stage := .start }
    | _, _ => none
  | .constructed now =>
    p.constructing.bind fun l =>
      (load l.config.config).map fun processor => p.builtProcessor l processor now
  | .constructionRaised =>
    p.manager.building.bind fun _ =>
      match p.stage with
      | .loading _ => none
      | .start =>
        some { p with manager := { p.manager with building := none }, stage := .start }
      | .acquired path =>
        some { p with
          manager := { p.manager with building := none }
          stage := .start
          leaked := path :: p.leaked }

/-- The clock does not go back, and moves only when it is read. -/
def step (p : Pool τ) (a : PoolAction τ) : Option (Pool τ) :=
  let now := a.now.getD p.clock
  if p.clock ≤ now then (p.act a).map fun p => { p with clock := now } else none

section Refinement

theorem manager_dropProcessor (p : Pool τ) (key : Key) :
    (p.dropProcessor key).manager = p.manager.dropProcessor key := by
  unfold dropProcessor
  dsimp only
  split <;> rfl

theorem manager_evictOne (p : Pool τ) : p.evictOne.manager = p.manager.evictOne := by
  unfold evictOne State.evictOne
  cases p.manager.processorCache.first with
  | none => rfl
  | some oldest => exact manager_dropProcessor p oldest.1

theorem manager_evictWhileFull (fuel : Nat) (p : Pool τ) :
    (p.evictWhileFull fuel).manager = p.manager.evictWhileFull fuel := by
  induction fuel generalizing p with
  | zero => rfl
  | succ fuel ih =>
    unfold evictWhileFull State.evictWhileFull
    split_ifs
    · rw [ih, manager_evictOne]
    · rfl

theorem manager_lockAcquired (p : Pool τ) (load : Load) (now : Nat) :
    (p.lockAcquired load now).manager = p.manager.lockAcquired load now := by
  unfold lockAcquired State.lockAcquired
  cases p.manager.processorCache.get load.key with
  | some _ => rfl
  | none =>
    dsimp only
    rw [manager_evictWhileFull]

theorem manager_unregisterByKey (p : Pool τ) (key : Key) :
    (p.unregisterByKey key).manager = p.manager.unregisterByKey key :=
  manager_dropProcessor _ key

theorem manager_syncModel (p : Pool τ) (config : ConfigRef) :
    (p.syncModel config).manager = p.manager.syncModel config := by
  unfold syncModel State.syncModel
  cases p.manager.dynamicConfigs.get config.key with
  | none => rfl
  | some existing =>
    dsimp only
    split_ifs
    · rfl
    · exact manager_dropProcessor _ _

theorem manager_foldl {α : Type} {op : Pool τ → α → Pool τ} {op' : State → α → State}
    (step : ∀ p a, (op p a).manager = op' p.manager a) (items : List α) (p : Pool τ) :
    (items.foldl op p).manager = items.foldl op' p.manager := by
  induction items generalizing p with
  | nil => rfl
  | cons a items ih => rw [List.foldl_cons, List.foldl_cons, ih, step]

theorem manager_fullSync (p : Pool τ) (dbModels : List ConfigRef) :
    (p.fullSync dbModels).manager = p.manager.fullSync dbModels := by
  unfold fullSync State.fullSync
  rw [manager_foldl manager_unregisterByKey, manager_foldl manager_syncModel]

theorem manager_unregisterPresent (p : Pool τ) (key : Key) :
    (p.unregisterPresent key).manager =
      if key ∈ p.manager.dynamicConfigs then p.manager.unregisterByKey key else p.manager := by
  unfold unregisterPresent
  split_ifs
  · exact manager_unregisterByKey p key
  · rfl

theorem manager_evictIdleProcessors (p : Pool τ) (now : Nat) :
    (p.evictIdleProcessors now).manager = p.manager.evictIdleProcessors now := by
  unfold evictIdleProcessors State.evictIdleProcessors
  dsimp only
  split_ifs
  · rfl
  · exact manager_foldl manager_dropProcessor _ p

theorem manager_builtProcessor (p : Pool τ) (load : Load) (processor : Loaded) (now : Nat) :
    (p.builtProcessor load processor now).manager =
      p.manager.builtProcessor load processor now := by
  unfold builtProcessor
  dsimp only
  split_ifs <;> rfl

end Refinement

/-- Actions of the manager in which no Processor leaves the cache. -/
def Calm : Action → Prop
  | .registerStatic .. | .registerDynamic .. | .persistReturned _ | .registerFromConfig _ => True
  | .getProcessor .. | .tryGetOrSync .. | .fetchReturned .. | .fetchFailed _ => True
  | .lockWaitCancelled _ => True
  | _ => False

/-- The effect of each action. -/
inductive Step (p : Pool τ) : PoolAction τ → Pool τ → Prop
  | calm (a : Action) (s : State) :
      Calm a → Manager.Step p.manager a s → Step p (.manager a) { p with manager := s }
  | persistFailed (i : Nat) (key : Key) :
      p.manager.persisting[i]? = some key →
      Step p (.manager (.persistFailed i)) ({ p with manager := { p.manager with
        persisting := p.manager.persisting.eraseIdx i } }.unregisterPresent key)
  | unregisterDynamic (key : Key) :
      Step p (.manager (.unregisterDynamic key)) (p.unregisterPresent key)
  | unregisterByKey (key : Key) : Step p (.manager (.unregisterByKey key)) (p.unregisterByKey key)
  | fullSync (dbModels : List ConfigRef) :
      Step p (.manager (.fullSync dbModels)) (p.fullSync dbModels)
  | lockAcquired (i now : Nat) (l : Load) :
      p.manager.building = none → p.manager.waiting[i]? = some l →
      ¬(p.manager.cacheMaxSize = 0 ∧ l.key ∉ p.manager.processorCache) →
      Step p (.manager (.lockAcquired i now)) ({ p with manager := { p.manager with
        waiting := p.manager.waiting.eraseIdx i } }.lockAcquired l now)
  | evictIdle (now : Nat) : Step p (.manager (.evictIdle now)) (p.evictIdleProcessors now)
  | clearCache : Step p (.manager .clearCache) p.clearCache
  | getOrLoad (l : Load) (path : String) :
      p.manager.building = some l → p.stage = .start →
      l.config.config.sharedTokenizer = some path → Step p .getOrLoad (p.getOrLoad path)
  | tokenizerLoaded (path : String) (tokenizer : τ) :
      p.stage = .loading path →
      Step p (.tokenizerLoaded tokenizer)
        { p with tokenizers := p.tokenizers.store path tokenizer, stage := .acquired path }
  | tokenizerFailed (l : Load) (path : String) :
      p.manager.building = some l → p.stage = .loading path →
      Step p .tokenizerFailed
        { p with manager := { p.manager with building := none }, stage := .start }
  | constructed (now : Nat) (l : Load) (loaded : Loaded) :
      p.constructing = some l → load l.config.config = some loaded →
      Step p (.constructed now) (p.builtProcessor l loaded now)
  | raised (l : Load) :
      p.manager.building = some l → p.stage = .start →
      Step p .constructionRaised
        { p with manager := { p.manager with building := none }, stage := .start }
  | leaked (l : Load) (path : String) :
      p.manager.building = some l → p.stage = .acquired path →
      Step p .constructionRaised { p with
        manager := { p.manager with building := none }
        stage := .start
        leaked := path :: p.leaked }

theorem managerStep_cases {p p' : Pool τ} {a : Action} (taken : p.managerStep a = some p') :
    Step p (.manager a) p' := by
  obtain ⟨s, inner, taken⟩ := Option.bind_eq_some_iff.mp taken
  cases Manager.step_cases inner with
  | persistFailed i key waits =>
    obtain ⟨key', waits', rfl⟩ := Option.map_eq_some_iff.mp taken
    exact .persistFailed i key' waits'
  | lockAcquired i now l free waits endless =>
    obtain ⟨l', waits', rfl⟩ := Option.map_eq_some_iff.mp taken
    rw [waits, Option.some_inj] at waits'
    exact .lockAcquired i now l' free (waits' ▸ waits) (waits' ▸ endless)
  | unregisterDynamic key =>
    obtain rfl := Option.some.inj taken
    exact .unregisterDynamic key
  | unregisterByKey key =>
    obtain rfl := Option.some.inj taken
    exact .unregisterByKey key
  | fullSync dbModels =>
    obtain rfl := Option.some.inj taken
    exact .fullSync dbModels
  | evictIdle now =>
    obtain rfl := Option.some.inj taken
    exact .evictIdle now
  | clearCache =>
    obtain rfl := Option.some.inj taken
    exact .clearCache
  | buildReturned now l loaded => cases taken
  | buildFailed l => cases taken
  | _ =>
    obtain rfl := Option.some.inj taken
    exact .calm _ _ trivial (Manager.step_cases inner)

theorem act_cases {p p' : Pool τ} {a : PoolAction τ} (taken : p.act a = some p') :
    Step p a p' := by
  cases a with
  | manager a => exact managerStep_cases taken
  | getOrLoad =>
    rw [act] at taken
    split at taken
    · rename_i l busy stage
      obtain ⟨path, needed, rfl⟩ := Option.map_eq_some_iff.mp taken
      exact .getOrLoad l path busy stage needed
    · cases taken
  | tokenizerLoaded tokenizer =>
    rw [act] at taken
    split at taken
    · rename_i path stage
      obtain rfl := Option.some.inj taken
      exact .tokenizerLoaded path tokenizer stage
    · cases taken
  | tokenizerFailed =>
    rw [act] at taken
    split at taken
    · rename_i l path busy stage
      obtain rfl := Option.some.inj taken
      exact .tokenizerFailed l path busy stage
    · cases taken
  | constructed now =>
    obtain ⟨l, ready, taken⟩ := Option.bind_eq_some_iff.mp taken
    obtain ⟨loaded, built, rfl⟩ := Option.map_eq_some_iff.mp taken
    exact .constructed now l loaded ready built
  | constructionRaised =>
    obtain ⟨l, busy, taken⟩ := Option.bind_eq_some_iff.mp taken
    cases stage : p.stage with
    | loading path =>
      rw [stage] at taken
      cases taken
    | start =>
      rw [stage] at taken
      obtain rfl := Option.some.inj taken
      exact .raised l busy stage
    | acquired path =>
      rw [stage] at taken
      obtain rfl := Option.some.inj taken
      exact .leaked l path busy stage

theorem step_cases {p p' : Pool τ} {a : PoolAction τ} (taken : p.step a = some p') :
    p.clock ≤ a.now.getD p.clock ∧
      ∃ q, Step p a q ∧ p' = { q with clock := a.now.getD p.clock } := by
  unfold step at taken
  dsimp only at taken
  split_ifs at taken with later
  obtain ⟨q, acted, rfl⟩ := Option.map_eq_some_iff.mp taken
  exact ⟨later, q, act_cases acted, rfl⟩

/-- Forgetting the tokenizers, each action is one of the manager's or none. -/
theorem Step.refines {p p' : Pool τ} {a : PoolAction τ} (step : Step p a p') :
    p'.manager = p.manager ∨ ∃ b, b.now = a.now ∧ Manager.Step p.manager b p'.manager := by
  cases step with
  | calm a s calm step => exact .inr ⟨a, rfl, step⟩
  | persistFailed i key waits =>
    rw [manager_unregisterPresent]
    exact .inr ⟨_, rfl, .persistFailed i key waits⟩
  | unregisterDynamic key =>
    rw [manager_unregisterPresent]
    exact .inr ⟨_, rfl, .unregisterDynamic key⟩
  | unregisterByKey key =>
    rw [manager_unregisterByKey]
    exact .inr ⟨_, rfl, .unregisterByKey key⟩
  | fullSync dbModels =>
    rw [manager_fullSync]
    exact .inr ⟨_, rfl, .fullSync dbModels⟩
  | lockAcquired i now l free waits endless =>
    rw [manager_lockAcquired]
    exact .inr ⟨_, rfl, .lockAcquired i now l free waits endless⟩
  | evictIdle now =>
    rw [manager_evictIdleProcessors]
    exact .inr ⟨_, rfl, .evictIdle now⟩
  | clearCache => exact .inr ⟨_, rfl, .clearCache⟩
  | getOrLoad l path busy start needed =>
    unfold Pool.getOrLoad
    split_ifs <;> exact .inl rfl
  | tokenizerLoaded path tokenizer loading => exact .inl rfl
  | tokenizerFailed l path busy loading => exact .inr ⟨.buildFailed, rfl, .buildFailed l busy⟩
  | constructed now l loaded ready built =>
    rw [manager_builtProcessor]
    have busy := (Option.filter_eq_some_iff.mp ready).1
    exact .inr ⟨.buildReturned now, rfl, .buildReturned now l loaded busy built⟩
  | raised l busy start => exact .inr ⟨.buildFailed, rfl, .buildFailed l busy⟩
  | leaked l path busy acquired => exact .inr ⟨.buildFailed, rfl, .buildFailed l busy⟩

end Pool

/-- `ProcessorManager.__init__` -/
def Pool.initial (τ : Type) (cacheMaxSize idleTimeout : Nat) : Pool τ where
  manager := Manager.initial cacheMaxSize idleTimeout
  tokenizers := ⟨∅, ∅, false⟩
  stage := .start
  clock := 0
  leaked := []

def Pool.machine (τ : Type) : Machine (Pool τ) (PoolAction τ) where
  step := Pool.step

end TrajProxy.Manager
