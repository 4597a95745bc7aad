import Mathlib.Data.Finset.Erase
import Mathlib.Data.Finset.Insert
import TrajProxy.Manager.Configurations

/-! Model labels of the metrics: `safe_model_label` keeps the names that lifecycle events
have registered. The registry is keyed by run id and model name and six operations write to
it; the events carry the name, and `full_sync`, the database fallback and the rollback of a
registration emit none. -/

namespace TrajProxy.Observability.ModelLabels
open Manager Transition

section Events

inductive LifecycleAction
  | register
  | unregister

inductive ModelType
  | static
  | dynamic

/-- `EVENT_MODEL_LIFECYCLE` -/
structure Lifecycle where
  action : LifecycleAction
  model : String
  runId : String
  modelType : ModelType

/-- The first argument of a decorated method. -/
inductive FirstArg
  | config (config : ConfigRef)
  | key (key : Key)

/-- The event of `observe_model_lifecycle`. -/
def observeModelLifecycle (action : LifecycleAction) (modelType : ModelType) :
    FirstArg → Lifecycle
  | .config config => ⟨action, config.config.modelName, config.config.runId, modelType⟩
  | .key key => ⟨action, key.2, key.1, modelType⟩

/-- The events of a step of the manager. -/
def emitted (s : State) : Action → List Lifecycle
  | .registerStatic r resolve _ now =>
    if (s.newConfig r resolve now).isSome then [⟨.register, r.modelName, r.runId, .static⟩] else []
  | .registerDynamic r resolve _ _ now =>
    if (s.newConfig r resolve now).isSome then [⟨.register, r.modelName, r.runId, .dynamic⟩]
    else []
  | .unregisterDynamic key =>
    if key ∈ s.dynamicConfigs then [⟨.unregister, key.2, key.1, .dynamic⟩] else []
  | .registerFromConfig config => [observeModelLifecycle .register .dynamic (.config config)]
  | .unregisterByKey key => [observeModelLifecycle .unregister .dynamic (.key key)]
  | _ => []

/-- The subscriber of `_register_model_lifecycle_handler`. -/
def handler (knownModels : Finset String) (e : Lifecycle) : Finset String :=
  match e.action with
  | .register => insert e.model knownModels
  | .unregister => knownModels.erase e.model

end Events

section Machine

structure Labels where
  manager : State
  /-- `_KNOWN_MODELS` -/
  knownModels : Finset String

/-- `safe_model_label` -/
def Labels.safeModelLabel (s : Labels) (model : String) : String :=
  if model ∈ s.knownModels then model else "unknown"

def step (s : Labels) (a : Action) : Option Labels :=
  if Answered s.manager a then
    (Manager.step s.manager a).map fun manager =>
      ⟨manager, (emitted s.manager a).foldl handler s.knownModels⟩
  else none

def labelMachine : Machine Labels Action := ⟨step⟩

/-- After `setup` and `ProcessorManager.__init__`. -/
def started (cacheMaxSize idleTimeout : Nat) : Labels := ⟨initial cacheMaxSize idleTimeout, ∅⟩

theorem step_cases {s s' : Labels} {a : Action} (taken : labelMachine.step s a = some s') :
    Answered s.manager a ∧ Manager.Step s.manager a s'.manager ∧
      s'.knownModels = (emitted s.manager a).foldl handler s.knownModels := by
  change step s a = some s' at taken
  unfold step at taken
  split_ifs at taken with answered
  obtain ⟨manager, moved, rfl⟩ := Option.map_eq_some_iff.mp taken
  exact ⟨answered, Manager.step_cases moved, rfl⟩

end Machine

section Names

/-- A registered configuration has this `model_name`. -/
def Registered (s : State) (model : String) : Prop :=
  Named s.configConfigs model ∨ Named s.dynamicConfigs model

/-- `safe_model_label` gives registered names back and no others. -/
structure Tracks (s : Labels) : Prop where
  registered : ∀ model, Registered s.manager model → s.safeModelLabel model = model
  unregistered : ∀ model, ¬Registered s.manager model → s.safeModelLabel model = "unknown"

/-- A configuration under another key, or a static one, has the name of the key. -/
def Shared (s : State) (key : Key) : Prop :=
  Named s.configConfigs key.2 ∨ ∃ other ∈ s.dynamicConfigs, other ≠ key ∧ other.2 = key.2

/-- What happens to the names of the registry is what the events say. The label of the
name "unknown" never changes. -/
def Admitted (s : Labels) : Action → Prop
  | .unregisterByKey key => Shared s.manager key → key.2 = "unknown"
  | .unregisterDynamic key =>
    key ∈ s.manager.dynamicConfigs → Shared s.manager key → key.2 = "unknown"
  | .persistFailed i => ∀ key, s.manager.persisting[i]? = some key →
      key ∈ s.manager.dynamicConfigs → ¬Shared s.manager key → key.2 = "unknown"
  | .fullSync dbModels => ∀ model, model ≠ "unknown" →
      (Named s.manager.configConfigs model ∨ (∃ row ∈ dbModels, row.config.modelName = model) ↔
        Registered s.manager model)
  | .fetchReturned _ (some row) _ =>
      ¬Registered s.manager row.config.modelName → row.config.modelName = "unknown"
  | _ => True

variable {s : Labels} {s' : State} {m : State} {key : Key} {name model : String}

theorem tracks_iff :
    Tracks s ↔ ∀ model, model ≠ "unknown" →
      (model ∈ s.knownModels ↔ Registered s.manager model) := by
  have label (model : String) :
      s.safeModelLabel model = if model ∈ s.knownModels then model else "unknown" := rfl
  constructor
  · intro h model other
    constructor
    · intro known
      by_contra absent
      have fallback := h.unregistered model absent
      rw [label, if_pos known] at fallback
      exact other fallback
    · intro held
      by_contra unknown
      have own := h.registered model held
      rw [label, if_neg unknown] at own
      exact other own.symm
  · intro h
    refine ⟨fun model held => ?_, fun model absent => ?_⟩
    · rw [label]
      split_ifs with known
      · rfl
      · by_contra other
        exact known ((h model (Ne.symm other)).mpr held)
    · rw [label]
      split_ifs with known
      · by_contra other
        exact absent ((h model other).mp known)
      · rfl

theorem tracks_started (cacheMaxSize idleTimeout : Nat) :
    Tracks (started cacheMaxSize idleTimeout) := by
  refine tracks_iff.mpr fun model _ => iff_of_false (Finset.notMem_empty model) ?_
  rintro (⟨key, config, present, -⟩ | ⟨key, config, present, -⟩) <;> cases present

/-- Without an event the names have to stay. -/
theorem silent_iff (h : Tracks s) (s' : State) :
    Tracks ⟨s', s.knownModels⟩ ↔ ∀ model, model ≠ "unknown" →
      (Registered s' model ↔ Registered s.manager model) := by
  rw [tracks_iff]
  refine forall₂_congr fun model other => ?_
  rw [tracks_iff.mp h model other]
  exact iff_comm

theorem tracks_added (h : Tracks s)
    (added : ∀ model, Registered s' model ↔ name = model ∨ Registered s.manager model) :
    Tracks ⟨s', insert name s.knownModels⟩ := by
  refine tracks_iff.mpr fun model other => ?_
  rw [Finset.mem_insert, tracks_iff.mp h model other, added, eq_comm]

theorem registered_registerFromConfig (keyed : Keyed m) (config : ConfigRef) :
    Registered (m.registerFromConfig config) model ↔
      config.config.modelName = model ∨ Registered m model := by
  unfold Registered State.registerFromConfig
  rw [keyed.dynamic.named_setItem, or_left_comm]

theorem registered_unregisterByKey_self (keyed : Keyed m) (key : Key) :
    Registered (m.unregisterByKey key) key.2 ↔ Shared m key := by
  unfold Registered State.unregisterByKey State.dropProcessor
  rw [keyed.dynamic.named_pop]
  exact Iff.rfl

theorem registered_unregisterByKey_ne (keyed : Keyed m) (other : model ≠ key.2) :
    Registered (m.unregisterByKey key) model ↔ Registered m model := by
  unfold Registered State.unregisterByKey State.dropProcessor
  rw [keyed.dynamic.named_pop, keyed.dynamic.named_iff]
  refine or_congr_right (exists_congr fun k => and_congr_right fun _ => and_iff_right_of_imp ?_)
  rintro rfl rfl
  exact other rfl

theorem registered_fullSync (keyed : Keyed m) (dbModels : List ConfigRef) :
    Registered (m.fullSync dbModels) model ↔
      Named m.configConfigs model ∨ ∃ row ∈ dbModels, row.config.modelName = model := by
  have synced := keyed.fullSync dbModels
  unfold Registered
  rw [configConfigs_fullSync, synced.dynamic.named_iff]
  simp only [mem_fullSync, List.mem_map]
  refine or_congr_right ⟨?_, ?_⟩
  · rintro ⟨key, ⟨row, mem, rfl⟩, name⟩
    exact ⟨row, mem, name⟩
  · rintro ⟨row, mem, name⟩
    exact ⟨row.key, ⟨row, mem, rfl⟩, name⟩

/-- An event for a removal takes the name away for every run id. -/
theorem unregistered_iff (h : Tracks s) (keyed : Keyed s.manager) (key : Key) :
    Tracks ⟨s.manager.unregisterByKey key, s.knownModels.erase key.2⟩ ↔
      (Shared s.manager key → key.2 = "unknown") := by
  rw [tracks_iff]
  constructor
  · intro tracks shared
    by_contra other
    have known := (tracks key.2 other).mpr
      ((registered_unregisterByKey_self keyed key).mpr shared)
    exact (Finset.mem_erase.mp known).1 rfl
  · intro fine model other
    rw [Finset.mem_erase, tracks_iff.mp h model other]
    by_cases same : model = key.2
    · obtain rfl := same
      refine iff_of_false (fun known => known.1 rfl) ?_
      rw [registered_unregisterByKey_self keyed]
      exact fun shared => other (fine shared)
    · rw [registered_unregisterByKey_ne keyed same, and_iff_right same]

/-- A removal without an event keeps the name for every run id. -/
theorem rolledBack_iff (h : Tracks s) (keyed : Keyed s.manager)
    (present : key ∈ s.manager.dynamicConfigs) :
    Tracks ⟨s.manager.unregisterByKey key, s.knownModels⟩ ↔
      (¬Shared s.manager key → key.2 = "unknown") := by
  have held : Registered s.manager key.2 := .inr (keyed.dynamic.named_iff.mpr ⟨key, present, rfl⟩)
  rw [silent_iff h]
  constructor
  · intro same
    by_contra! missed
    obtain ⟨alone, other⟩ := missed
    exact alone ((registered_unregisterByKey_self keyed key).mp ((same key.2 other).mpr held))
  · intro fine model other
    by_cases same : model = key.2
    · obtain rfl := same
      refine iff_of_true ((registered_unregisterByKey_self keyed key).mpr ?_) held
      by_contra alone
      exact other (fine alone)
    · exact registered_unregisterByKey_ne keyed same

theorem registered_congr (same : SameConfigs m s') (model : String) :
    Registered s' model ↔ Registered m model := by
  unfold Registered
  rw [same.static, same.dynamic]

theorem emitted_reads {a : Action} (reads : Reads a) : emitted m a = [] := by
  cases a with
  | registerStatic | registerDynamic | unregisterDynamic | registerFromConfig
  | unregisterByKey => exact reads.elim
  | _ => rfl

theorem admitted_reads {a : Action} (reads : Reads a) : Admitted s a := by
  cases a with
  | persistFailed | unregisterDynamic | unregisterByKey | fullSync => exact reads.elim
  | fetchReturned i row now =>
    cases row with
    | none => trivial
    | some config => exact reads.elim
  | _ => trivial

end Names

section Runs

variable {s : Labels} {key : Key}

theorem newConfig_modelName {s : State} {r : State.Registration}
    {resolve : String → Option String} {now : Nat} {config : ModelConfig}
    (accepted : s.newConfig r resolve now = some config) : config.modelName = r.modelName :=
  congrArg Prod.snd (State.newConfig_key accepted)

theorem registerStatic_tracks (h : Tracks s) (keyed : Keyed s.manager) (r : State.Registration)
    (resolve : String → Option String) (address now : Nat) :
    Tracks ⟨s.manager.registerStatic r resolve address now,
      (emitted s.manager (.registerStatic r resolve address now)).foldl handler s.knownModels⟩ := by
  unfold emitted State.registerStatic
  dsimp only
  cases accepted : s.manager.newConfig r resolve now with
  | none => exact h
  | some config =>
    refine tracks_added h fun model => ?_
    have stored : Named (s.manager.configConfigs.setItem config.key ⟨address, config⟩) model ↔
        config.modelName = model ∨ Named s.manager.configConfigs model :=
      keyed.static.named_setItem ⟨address, config⟩
    unfold Registered
    rw [← newConfig_modelName accepted, ← or_assoc]
    exact or_congr_left stored

theorem registerDynamic_tracks (h : Tracks s) (keyed : Keyed s.manager) (r : State.Registration)
    (resolve : String → Option String) (persistToDb : Bool) (address now : Nat) :
    Tracks ⟨s.manager.registerDynamic r resolve persistToDb address now,
      (emitted s.manager (.registerDynamic r resolve persistToDb address now)).foldl handler
        s.knownModels⟩ := by
  unfold emitted State.registerDynamic
  dsimp only
  cases accepted : s.manager.newConfig r resolve now with
  | none => exact h
  | some config =>
    refine tracks_added h fun model => ?_
    rw [← newConfig_modelName accepted]
    exact registered_registerFromConfig keyed ⟨address, config⟩

theorem unregisterDynamic_iff (h : Tracks s) (keyed : Keyed s.manager) (key : Key) :
    Tracks ⟨s.manager.unregisterDynamic key,
        (emitted s.manager (.unregisterDynamic key)).foldl handler s.knownModels⟩ ↔
      Admitted s (.unregisterDynamic key) := by
  unfold emitted State.unregisterDynamic
  dsimp only
  by_cases present : key ∈ s.manager.dynamicConfigs
  · rw [if_pos present, if_pos present]
    exact (unregistered_iff h keyed key).trans ⟨fun fine _ => fine, fun fine => fine present⟩
  · rw [if_neg present, if_neg present]
    exact iff_of_true h fun there => absurd there present

theorem persistFailed_iff {i : Nat} (h : Tracks s) (keyed : Keyed s.manager)
    (waits : s.manager.persisting[i]? = some key) :
    Tracks ⟨State.rollbackRegistration
        { s.manager with persisting := s.manager.persisting.eraseIdx i } key, s.knownModels⟩ ↔
      Admitted s (.persistFailed i) := by
  have admitted : Admitted s (.persistFailed i) ↔
      (key ∈ s.manager.dynamicConfigs → ¬Shared s.manager key → key.2 = "unknown") := by
    constructor
    · exact fun fine => fine key waits
    · intro fine other waits'
      obtain rfl := Option.some_inj.mp (waits.symm.trans waits')
      exact fine
  rw [admitted]
  let resumed : Labels :=
    ⟨{ s.manager with persisting := s.manager.persisting.eraseIdx i }, s.knownModels⟩
  have tracks : Tracks resumed := ⟨h.registered, h.unregistered⟩
  have kept : Keyed resumed.manager := ⟨keyed.static, keyed.dynamic⟩
  unfold State.rollbackRegistration
  by_cases present : key ∈ s.manager.dynamicConfigs
  · rw [if_pos present]
    exact (rolledBack_iff tracks kept present).trans
      ⟨fun fine _ => fine, fun fine => fine present⟩
  · rw [if_neg present]
    exact iff_of_true tracks fun there => absurd there present

theorem fetched_iff {i now : Nat} (h : Tracks s) (keyed : Keyed s.manager) (row : ConfigRef) :
    Tracks ⟨State.fetched { s.manager with fetching := s.manager.fetching.eraseIdx i } row.key
        (some row) now, s.knownModels⟩ ↔
      (¬Registered s.manager row.config.modelName → row.config.modelName = "unknown") := by
  have loaded (model : String) :
      Registered (State.fetched { s.manager with fetching := s.manager.fetching.eraseIdx i }
          row.key (some row) now) model ↔
        row.config.modelName = model ∨ Registered s.manager model := by
    refine (registered_congr (SameConfigs.loadProcessor _ row.key now) model).trans ?_
    exact registered_registerFromConfig keyed row
  rw [silent_iff h]
  simp only [loaded, or_iff_right_iff_imp]
  constructor
  · intro known absent
    by_contra other
    exact absent (known _ other rfl)
  · rintro fine model other rfl
    by_contra absent
    exact other (fine absent)

theorem step_tracks_iff {s' : Labels} {a : Action} (h : Tracks s) (keyed : Keyed s.manager)
    (taken : labelMachine.step s a = some s') : Tracks s' ↔ Admitted s a := by
  obtain ⟨manager, known⟩ := s'
  obtain ⟨answered, moved, rfl⟩ := step_cases taken
  dsimp only at moved
  by_cases reads : Reads a
  · rw [emitted_reads reads]
    exact iff_of_true ((silent_iff h manager).mpr fun model _ =>
      registered_congr (SameConfigs.step reads moved) model) (admitted_reads reads)
  cases moved with
  | registerStatic r resolve address now =>
    exact iff_of_true (registerStatic_tracks h keyed r resolve address now) trivial
  | registerDynamic r resolve persistToDb address now =>
    exact iff_of_true (registerDynamic_tracks h keyed r resolve persistToDb address now) trivial
  | persistFailed i key waits => exact persistFailed_iff h keyed waits
  | unregisterDynamic key => exact unregisterDynamic_iff h keyed key
  | registerFromConfig config =>
    exact iff_of_true
      (tracks_added h fun model => registered_registerFromConfig keyed config) trivial
  | unregisterByKey key => exact unregistered_iff h keyed key
  | fullSync dbModels =>
    refine (silent_iff h _).trans (forall₂_congr fun model _ => ?_)
    rw [registered_fullSync keyed]
  | fetchReturned i row now key waits =>
    cases row with
    | none => exact absurd trivial reads
    | some config =>
      obtain rfl := Option.some_inj.mp (waits.symm.trans answered)
      exact fetched_iff h keyed config
  | persistReturned | getProcessor | tryGetOrSync | fetchFailed | lockAcquired | lockWaitCancelled
  | buildReturned | buildFailed | evictIdle | clearCache => exact absurd trivial reads

/-- In every run the labels follow the registry exactly while no step removes one of several
configurations of a name with an event, or adds or removes a name without one. -/
theorem tracks_along_iff (cacheMaxSize idleTimeout : Nat) (run : List Action) :
    labelMachine.Along Tracks (started cacheMaxSize idleTimeout) run ↔
      labelMachine.Guarded Admitted (started cacheMaxSize idleTimeout) run := by
  have keeps (s : Labels) (a : Action) (s' : Labels) (keyed : Keyed s.manager)
      (taken : labelMachine.step s a = some s') : Keyed s'.manager := by
    obtain ⟨answered, moved, -⟩ := step_cases taken
    exact keyed.step answered moved
  have start : Keyed (started cacheMaxSize idleTimeout).manager := Keyed.initial _ _
  exact Machine.along_iff_guarded_of_inv keeps
    (fun s a s' keyed tracks taken => step_tracks_iff tracks keyed taken) start
    (tracks_started _ _) run

/-- One of two runs that share a model is unregistered, and the other loses its label. -/
theorem shared_model_unlabelled :
    ¬∀ (cacheMaxSize idleTimeout : Nat) (run : List Action),
      labelMachine.Along Tracks (started cacheMaxSize idleTimeout) run := by
  intro all
  let model (runId : String) : ConfigRef := ⟨0,
    { url := "http://infer", apiKey := "", tokenizerPath := none, runId := runId, modelName := "m"
      tokenInTokenOut := false, toolParser := "", reasoningParser := "", updatedAt := none }⟩
  let run : List Action := [.registerFromConfig (model "a"), .registerFromConfig (model "b"),
    .unregisterByKey ("a", "m")]
  obtain ⟨s, ran, held, label⟩ : ∃ s, labelMachine.exec (started 32 300) run = some s ∧
      s.manager.dynamicConfigs.get ("b", "m") = some (model "b") ∧
      s.safeModelLabel "m" = "unknown" := ⟨_, rfl, rfl, rfl⟩
  have own := ((all 32 300 run).exec ran).registered "m" (.inr ⟨_, _, held, rfl⟩)
  exact absurd (own.symm.trans label) (by decide)

end Runs

end TrajProxy.Observability.ModelLabels
