import TrajProxy.Manager.Bookkeeping
import TrajProxy.Sync.Registry

/-! The two public calls that write to the database, as wholes.
`register_dynamic_processor` publishes its configuration, waits for the write
and takes the key out again when the write failed; what other tasks did to the
key in the meantime is lost then. `unregister_dynamic_processor` takes the key
out first and does not put it back. -/

namespace TrajProxy.Manager
open Transition

/-- What the synchronizer calls while a registration waits. -/
inductive Callback
  | registerFromConfig (config : ConfigRef)
  | unregisterByKey (key : Key)
  | fullSync (dbModels : List ConfigRef)

def Callback.action : Callback → Action
  | registerFromConfig config => .registerFromConfig config
  | unregisterByKey key => .unregisterByKey key
  | fullSync dbModels => .fullSync dbModels

/-- A full sync decides for every key. -/
def Callback.Touches (key : Key) : Callback → Prop
  | registerFromConfig config => config.key = key
  | unregisterByKey key' => key' = key
  | fullSync _ => True

inductive Error
  | valueError
  | keyError
  | databaseError
  deriving DecidableEq

namespace State

def called (s : State) : Callback → State
  | .registerFromConfig config => s.registerFromConfig config
  | .unregisterByKey key => s.unregisterByKey key
  | .fullSync dbModels => s.fullSync dbModels

/-- `register_dynamic_processor`; `meanwhile` runs during the write, and
`written` is how that ends. -/
def registerDynamicProcessor (s : State) (r : Registration) (resolve : String → Option String)
    (persistToDb : Bool) (address now : Nat) (meanwhile : List Callback) (written : Bool) :
    Except Error ConfigRef × State :=
  match s.newConfig r resolve now with
  | none => (.error .valueError, s)
  | some config =>
    let published := s.registerFromConfig ⟨address, config⟩
    if !persistToDb then (.ok ⟨address, config⟩, published)
    else
      let s := meanwhile.foldl called published
      if written then (.ok ⟨address, config⟩, s)
      else if config.key ∈ s.dynamicConfigs then
        (.error .databaseError, s.unregisterByKey config.key)
      -- `del self._dynamic_configs[key]` in the except clause
      else (.error .keyError, s)

end State

variable {s s' : State} {key : Key}

section Exec
open State

theorem registerDynamicProcessor_failed {r : Registration} {resolve : String → Option String}
    {now : Nat} {config : ModelConfig} (accepted : s.newConfig r resolve now = some config)
    (address : Nat) (meanwhile : List Callback) :
    s.registerDynamicProcessor r resolve true address now meanwhile false =
      let s := meanwhile.foldl called (s.registerFromConfig ⟨address, config⟩)
      if config.key ∈ s.dynamicConfigs then
        (.error .databaseError, s.unregisterByKey config.key)
      else (.error .keyError, s) := by
  unfold registerDynamicProcessor
  rw [accepted]
  rfl

/-- The list of suspended writes. -/
def withPersisting (persisting : List Key) (s : State) : State := { s with persisting }

theorem called_withPersisting (persisting : List Key) (s : State) (c : Callback) :
    (withPersisting persisting s).called c = withPersisting persisting (s.called c) := by
  have sync (s : State) (config : ConfigRef) :
      (withPersisting persisting s).syncModel config =
        withPersisting persisting (s.syncModel config) := by
    unfold syncModel withPersisting
    dsimp only
    cases s.dynamicConfigs.get config.key with
    | none => rfl
    | some existing =>
      dsimp only
      split_ifs <;> rfl
  cases c with
  | registerFromConfig config => rfl
  | unregisterByKey key => rfl
  | fullSync dbModels =>
    change List.foldl _ (dbModels.foldl syncModel (withPersisting persisting s)) _ = _
    rw [List.foldl_hom _ sync]
    exact List.foldl_hom _ fun _ _ => rfl

theorem foldl_withPersisting (persisting : List Key) (s : State) (meanwhile : List Callback) :
    meanwhile.foldl called (withPersisting persisting s) =
      withPersisting persisting (meanwhile.foldl called s) :=
  List.foldl_hom _ (called_withPersisting persisting)

theorem exec_callbacks (s : State) (meanwhile : List Callback) :
    machine.exec s (meanwhile.map Callback.action) = some (meanwhile.foldl called s) := by
  induction meanwhile generalizing s with
  | nil => rfl
  | cons c rest ih =>
    cases c <;> exact ih _

/-- The call is a run of the manager. -/
theorem registerDynamicProcessor_exec {r : Registration} {resolve : String → Option String}
    {now : Nat} {config : ModelConfig} (accepted : s.newConfig r resolve now = some config)
    (address : Nat) (meanwhile : List Callback) (written : Bool) :
    machine.exec s (.registerDynamic r resolve true address now ::
        (meanwhile.map Callback.action ++
          [if written then .persistReturned s.persisting.length
            else .persistFailed s.persisting.length])) =
      some (s.registerDynamicProcessor r resolve true address now meanwhile written).2 := by
  have published : machine.step s (.registerDynamic r resolve true address now) =
      some (withPersisting (s.persisting ++ [config.key])
        (s.registerFromConfig ⟨address, config⟩)) := by
    change some (s.registerDynamic r resolve true address now) = _
    unfold registerDynamic
    rw [accepted]
    rfl
  have restored (t : State) (kept : t.persisting = s.persisting) :
      withPersisting ((s.persisting ++ [config.key]).eraseIdx s.persisting.length) t = t := by
    rw [List.eraseIdx_append_of_length_le (le_refl _), Nat.sub_self, List.eraseIdx_zero,
      List.tail_cons, List.append_nil, ← kept]
    rfl
  have kept : (meanwhile.foldl called (s.registerFromConfig ⟨address, config⟩)).persisting =
      s.persisting := by
    have same :=
      foldl_withPersisting s.persisting (s.registerFromConfig ⟨address, config⟩) meanwhile
    exact congrArg (fun t => t.persisting) same
  have held : (s.persisting ++ [config.key])[s.persisting.length]? = some config.key := by
    simp
  rw [Machine.exec, published, Option.bind_some, Machine.exec_append, exec_callbacks,
    foldl_withPersisting, Option.bind_some]
  cases written with
  | true =>
    unfold registerDynamicProcessor
    rw [accepted]
    change Option.bind (Option.map _ (s.persisting ++ [config.key])[s.persisting.length]?) _ = _
    rw [held]
    exact congrArg some (restored _ kept)
  | false =>
    rw [registerDynamicProcessor_failed accepted]
    change Option.bind (Option.map _ (s.persisting ++ [config.key])[s.persisting.length]?) _ = _
    rw [held]
    refine (congrArg (fun t => some (t.rollbackRegistration config.key)) (restored _ kept)).trans ?_
    unfold rollbackRegistration
    dsimp only
    split_ifs <;> rfl

end Exec

section Membership
open State

theorem mem_syncModel (s : State) (config : ConfigRef) :
    key ∈ (s.syncModel config).dynamicConfigs ↔ config.key = key ∨ key ∈ s.dynamicConfigs := by
  have stored : key ∈ (s.registerFromConfig config).dynamicConfigs ↔
      config.key = key ∨ key ∈ s.dynamicConfigs := by
    unfold registerFromConfig
    rw [OrderedDict.mem_setItem, eq_comm]
  unfold syncModel
  cases present : s.dynamicConfigs.get config.key with
  | none => exact stored
  | some existing =>
    have held : config.key ∈ s.dynamicConfigs := by
      by_contra absent
      rw [OrderedDict.get_eq_none.mpr absent] at present
      cases present
    dsimp only
    split_ifs
    · exact ⟨.inr, fun h => h.elim (fun same => same ▸ held) id⟩
    · exact stored

theorem mem_syncModels (dbModels : List ConfigRef) (s : State) :
    key ∈ (dbModels.foldl syncModel s).dynamicConfigs ↔
      key ∈ dbModels.map ConfigRef.key ∨ key ∈ s.dynamicConfigs := by
  induction dbModels generalizing s with
  | nil => simp
  | cons config rest ih =>
    rw [List.foldl_cons, ih, mem_syncModel, List.map_cons, List.mem_cons, eq_comm (a := key)]
    tauto

theorem mem_unregisterAll (keys : List Key) (s : State) :
    key ∈ (keys.foldl unregisterByKey s).dynamicConfigs ↔ key ∉ keys ∧ key ∈ s.dynamicConfigs := by
  induction keys generalizing s with
  | nil => simp
  | cons first rest ih =>
    rw [List.foldl_cons, ih, List.mem_cons, not_or]
    unfold unregisterByKey dropProcessor
    rw [OrderedDict.mem_pop]
    tauto

/-- After a full sync exactly the rows have configurations. -/
theorem mem_fullSync (s : State) (dbModels : List ConfigRef) :
    key ∈ (s.fullSync dbModels).dynamicConfigs ↔ key ∈ dbModels.map ConfigRef.key := by
  unfold fullSync
  rw [mem_unregisterAll, mem_syncModels, List.mem_filter, decide_eq_true_eq, ← AList.mem_keys]
  tauto

end Membership

theorem mem_called_of_touches {c : Callback} (touches : c.Touches key) (s s' : State) :
    key ∈ (s.called c).dynamicConfigs ↔ key ∈ (s'.called c).dynamicConfigs := by
  cases c with
  | registerFromConfig config =>
    obtain rfl := touches
    unfold State.called State.registerFromConfig
    simp only [OrderedDict.mem_setItem, true_or]
  | unregisterByKey key' =>
    obtain rfl := touches
    unfold State.called State.unregisterByKey State.dropProcessor
    simp only [OrderedDict.mem_pop, ne_eq, not_true_eq_false, false_and]
  | fullSync dbModels => exact (mem_fullSync s dbModels).trans (mem_fullSync s' dbModels).symm

theorem mem_called_congr (c : Callback)
    (same : key ∈ s.dynamicConfigs ↔ key ∈ s'.dynamicConfigs) :
    key ∈ (s.called c).dynamicConfigs ↔ key ∈ (s'.called c).dynamicConfigs := by
  cases c with
  | registerFromConfig config =>
    unfold State.called State.registerFromConfig
    rw [OrderedDict.mem_setItem, OrderedDict.mem_setItem, same]
  | unregisterByKey key' =>
    unfold State.called State.unregisterByKey State.dropProcessor
    rw [OrderedDict.mem_pop, OrderedDict.mem_pop, same]
  | fullSync dbModels => exact (mem_fullSync s dbModels).trans (mem_fullSync s' dbModels).symm

theorem mem_foldl_congr (meanwhile : List Callback)
    (same : key ∈ s.dynamicConfigs ↔ key ∈ s'.dynamicConfigs) :
    key ∈ (meanwhile.foldl State.called s).dynamicConfigs ↔
      key ∈ (meanwhile.foldl State.called s').dynamicConfigs := by
  induction meanwhile generalizing s s' with
  | nil => exact same
  | cons c rest ih => exact ih (mem_called_congr c same)

/-- Once a callback has touched the key, its presence does not depend on what
was there before. -/
theorem mem_foldl_of_touches {meanwhile : List Callback}
    (touched : ∃ c ∈ meanwhile, c.Touches key) (s s' : State) :
    key ∈ (meanwhile.foldl State.called s).dynamicConfigs ↔
      key ∈ (meanwhile.foldl State.called s').dynamicConfigs := by
  induction meanwhile generalizing s s' with
  | nil =>
    obtain ⟨c, mem, -⟩ := touched
    cases mem
  | cons first rest ih =>
    by_cases here : first.Touches key
    · exact mem_foldl_congr rest (mem_called_of_touches here s s')
    · obtain ⟨c, mem, touches⟩ := touched
      obtain rfl | later := List.mem_cons.mp mem
      · exact absurd touches here
      · exact ih ⟨c, later, touches⟩ (s.called first) (s'.called first)

/-- A run with the published key beside the run of the other tasks alone. -/
structure Beside (key : Key) (s alone : State) : Prop where
  configs : s.dynamicConfigs.pop key = alone.dynamicConfigs
  present : key ∈ s.dynamicConfigs
  cache : s.processorCache = alone.processorCache
  uncached : key ∉ s.processorCache

namespace Beside

variable {alone : State}

theorem called (h : Beside key s alone) {c : Callback} (other : ¬c.Touches key) :
    Beside key (s.called c) (alone.called c) := by
  cases c with
  | registerFromConfig config =>
    refine ⟨?_, ?_, h.cache, h.uncached⟩
    · unfold State.called State.registerFromConfig
      rw [OrderedDict.pop_setItem_ne _ _ (Ne.symm other), h.configs]
    · exact (OrderedDict.mem_setItem ..).mpr (.inr h.present)
  | unregisterByKey key' =>
    refine ⟨?_, ?_, ?_, ?_⟩
    · unfold State.called State.unregisterByKey State.dropProcessor
      rw [OrderedDict.pop_pop, h.configs]
    · exact (OrderedDict.mem_pop ..).mpr ⟨Ne.symm other, h.present⟩
    · exact congrArg (OrderedDict.pop · key') h.cache
    · exact fun cached => h.uncached ((OrderedDict.mem_pop ..).mp cached).2
  | fullSync dbModels => exact absurd trivial other

theorem foldl {meanwhile : List Callback} (h : Beside key s alone)
    (others : ∀ c ∈ meanwhile, ¬c.Touches key) :
    Beside key (meanwhile.foldl State.called s) (meanwhile.foldl State.called alone) := by
  induction meanwhile generalizing s alone with
  | nil => exact h
  | cons c rest ih =>
    rw [List.forall_mem_cons] at others
    exact ih (h.called others.1) others.2

theorem published (config : ConfigRef) (absent : config.key ∉ s.dynamicConfigs)
    (uncached : config.key ∉ s.processorCache) :
    Beside config.key (s.registerFromConfig config) s :=
  ⟨OrderedDict.pop_setItem_self config absent, (OrderedDict.mem_setItem ..).mpr (.inl rfl), rfl,
    uncached⟩

end Beside

section Registration

variable (s : State) (r : State.Registration) (resolve : String → Option String)
  (address now : Nat) (meanwhile : List Callback)

/-- The failed call raises `DatabaseError` and leaves what the other tasks alone
would have left. -/
structure RollsBack : Prop where
  error : (s.registerDynamicProcessor r resolve true address now meanwhile false).1 =
    .error .databaseError
  configs :
    (s.registerDynamicProcessor r resolve true address now meanwhile false).2.dynamicConfigs =
      (meanwhile.foldl State.called s).dynamicConfigs
  cache :
    (s.registerDynamicProcessor r resolve true address now meanwhile false).2.processorCache =
      (meanwhile.foldl State.called s).processorCache

variable {s r resolve address now meanwhile}

theorem rollsBack_iff {config : ModelConfig} (accepted : s.newConfig r resolve now = some config)
    (uncached : config.key ∉ s.processorCache) :
    RollsBack s r resolve address now meanwhile ↔ ∀ c ∈ meanwhile, ¬c.Touches config.key := by
  have absent := OrderedDict.get_eq_none.mp (State.newConfig_absent accepted).2
  have failed := registerDynamicProcessor_failed accepted address meanwhile
  refine ⟨?_, fun others => ?_⟩
  · intro rolled c mem touches
    have same := mem_foldl_of_touches ⟨c, mem, touches⟩ (s.registerFromConfig ⟨address, config⟩) s
    obtain ⟨error, configs, -⟩ := rolled
    rw [failed] at error configs
    by_cases present : config.key ∈ (meanwhile.foldl State.called
        (s.registerFromConfig ⟨address, config⟩)).dynamicConfigs
    · -- an entry that is not its own is deleted
      have gone : config.key ∉ (meanwhile.foldl State.called s).dynamicConfigs := by
        rw [← configs]
        simp only [if_pos present]
        exact fun mem => ((OrderedDict.mem_pop ..).mp mem).1 rfl
      exact gone (same.mp present)
    · simp only [if_neg present] at error
      cases error
  · have beside := (Beside.published ⟨address, config⟩ absent uncached).foldl others
    have present : config.key ∈ (meanwhile.foldl State.called
        (s.registerFromConfig ⟨address, config⟩)).dynamicConfigs := beside.present
    have rolled := failed
    simp only [if_pos present] at rolled
    refine ⟨by rw [rolled], ?_, ?_⟩
    · rw [rolled]
      exact beside.configs
    · rw [rolled, ← beside.cache]
      exact OrderedDict.pop_of_notMem beside.uncached

end Registration

/-- In every reachable state a registration whose write fails is undone exactly
if nothing else touched its key during the write. -/
theorem run_rollsBack_iff (cacheMaxSize idleTimeout : Nat) (as : List Action) :
    machine.Along (fun s => ∀ (r : State.Registration) (resolve : String → Option String)
        (address now : Nat) (meanwhile : List Callback) (config : ModelConfig),
        s.newConfig r resolve now = some config →
          (RollsBack s r resolve address now meanwhile ↔
            ∀ c ∈ meanwhile, ¬c.Touches config.key))
      (initial cacheMaxSize idleTimeout) as := by
  refine (Machine.along_of_step (fun _ _ _ h taken => Bookkeeping.step h (step_cases taken))
    (Bookkeeping.initial cacheMaxSize idleTimeout) as).mono fun s kept => ?_
  intro r resolve address now meanwhile config accepted
  obtain ⟨static, dynamic⟩ := State.newConfig_absent accepted
  refine rollsBack_iff accepted fun cached => ?_
  rcases kept.configured config.key cached with there | there
  · exact OrderedDict.get_eq_none.mp static there
  · exact OrderedDict.get_eq_none.mp dynamic there

/-- A full sync during the write sees no row and removes the key, so that the
rollback raises `KeyError`. -/
theorem registration_not_rolled_back :
    ¬∀ (as : List Action) (s : State) (r : State.Registration)
      (resolve : String → Option String) (address now : Nat) (meanwhile : List Callback)
      (config : ModelConfig), machine.exec (initial 1 300) as = some s →
      s.newConfig r resolve now = some config → RollsBack s r resolve address now meanwhile := by
  intro always
  let r : State.Registration := ⟨"m", "http://infer/v1", "key", none, false, "", "", ""⟩
  let config : ModelConfig :=
    ⟨"http://infer/v1", "key", none, "", "m", false, "", "", some 0⟩
  have rolled := always [] (initial 1 300) r some 0 0 [.fullSync []] config rfl rfl
  have failed : ((initial 1 300).registerDynamicProcessor r some true 0 0 [.fullSync []]
      false).1 = .error .keyError := rfl
  cases failed.symm.trans rolled.error

end TrajProxy.Manager
