import TrajProxy.Manager.Pool
import TrajProxy.Manager.Bookkeeping

/-! The reference counts of `TokenizerCache` in every run of the manager. A
count is the number of cached Processors with the path, plus the one under
construction, plus the constructions that raised with the tokenizer in hand:
nothing releases those. -/

namespace TrajProxy.Manager
open Transition

variable {τ : Type} {p : Pool τ} {t : TokenizerCache τ} {lost : List String}

/-- A Processor that shares the tokenizer of a path. -/
def uses (path : String) (loaded : Loaded) : Bool :=
  loaded.processor.sharedTokenizer = some path

/-- The Processors with the tokenizer of a path, cached or under construction. -/
def Pool.users (p : Pool τ) (path : String) : Nat :=
  p.manager.processorCache.countValues (uses path) + if p.stage = .acquired path then 1 else 0

structure Exact (p : Pool τ) : Prop where
  counts : ∀ path, p.tokenizers.refs path = p.users path
  cached : ∀ path, path ∈ p.tokenizers.cache ↔ 0 < p.users path

/-- The two maps of `TokenizerCache` have the same keys. -/
structure Tracked (t : TokenizerCache τ) : Prop where
  cached : ∀ path, path ∈ t.cache ↔ path ∈ t.refCounts
  positive : ∀ path n, t.refCounts.get path = some n → 0 < n
  keyError : t.keyError = false

namespace Tracked

theorem refs_pos (h : Tracked t) (path : String) : 0 < t.refs path ↔ path ∈ t.cache := by
  rw [h.cached, TokenizerCache.refs]
  cases present : t.refCounts.get path with
  | none => exact iff_of_false (lt_irrefl 0) (OrderedDict.get_eq_none.mp present)
  | some n =>
    refine iff_of_true (h.positive path n present) ?_
    by_contra absent
    rw [OrderedDict.get_eq_none.mpr absent] at present
    cases present

theorem acquire (h : Tracked t) {path : String} (there : path ∈ t.cache) :
    Tracked (t.acquire path) ∧
      ∀ q, (t.acquire path).refs q = t.refs q + if q = path then 1 else 0 := by
  unfold TokenizerCache.acquire
  split
  · rename_i n present
    refine ⟨⟨fun q => ?_, fun q m => ?_, h.keyError⟩, fun q => ?_⟩
    · rw [OrderedDict.mem_setItem, h.cached]
      refine ⟨Or.inr, ?_⟩
      rintro (rfl | mem)
      · exact (h.cached q).mp there
      · exact mem
    · rw [OrderedDict.get_setItem]
      split_ifs
      · intro same
        exact Option.some.inj same ▸ Nat.succ_pos n
      · exact h.positive q m
    · unfold TokenizerCache.refs
      rw [OrderedDict.get_setItem]
      split_ifs with same
      · rw [same, present]
        rfl
      · rfl
  · rename_i absent
    exact absurd ((h.cached path).mp there) (OrderedDict.get_eq_none.mp absent)

theorem store (h : Tracked t) {path : String} (absent : path ∉ t.cache) (tokenizer : τ) :
    Tracked (t.store path tokenizer) ∧
      ∀ q, (t.store path tokenizer).refs q = t.refs q + if q = path then 1 else 0 := by
  have zero : t.refs path = 0 := Nat.eq_zero_of_not_pos fun pos => absent ((h.refs_pos path).mp pos)
  refine ⟨⟨fun q => ?_, fun q m => ?_, h.keyError⟩, fun q => ?_⟩
  · exact (OrderedDict.mem_setItem ..).trans
      ((or_congr_right (h.cached q)).trans (OrderedDict.mem_setItem ..).symm)
  · unfold TokenizerCache.store
    rw [OrderedDict.get_setItem]
    split_ifs
    · intro same
      exact Option.some.inj same ▸ Nat.one_pos
    · exact h.positive q m
  · unfold TokenizerCache.store
    change ((t.refCounts.setItem path 1).get q).getD 0 = _
    rw [OrderedDict.get_setItem]
    split_ifs with same
    · rw [same, zero]
      rfl
    · rfl

theorem release (h : Tracked t) (path : String) :
    Tracked (t.release path) ∧
      ∀ q, (t.release path).refs q = t.refs q - if q = path then 1 else 0 := by
  unfold TokenizerCache.release
  split
  · rename_i absent
    refine ⟨h, fun q => ?_⟩
    split_ifs with same
    · rw [same, TokenizerCache.refs, absent]
      rfl
    · rfl
  · rename_i n present
    have mem : path ∈ t.refCounts := by
      by_contra absent
      rw [OrderedDict.get_eq_none.mpr absent] at present
      cases present
    split_ifs with last
    · refine ⟨⟨fun q => ?_, fun q m => ?_, ?_⟩, fun q => ?_⟩
      · rw [OrderedDict.mem_pop, OrderedDict.mem_pop, h.cached]
      · rw [OrderedDict.get_pop]
        split_ifs
        · intro same
          cases same
        · exact h.positive q m
      · rw [h.keyError, Bool.false_or, decide_eq_false_iff_not, not_not]
        exact (h.cached path).mpr mem
      · unfold TokenizerCache.refs
        rw [OrderedDict.get_pop]
        split_ifs with same
        · rw [same, present]
          exact last.symm
        · rfl
    · refine ⟨⟨fun q => ?_, fun q m => ?_, h.keyError⟩, fun q => ?_⟩
      · rw [OrderedDict.mem_setItem, h.cached]
        refine ⟨Or.inr, ?_⟩
        rintro (rfl | there)
        · exact mem
        · exact there
      · rw [OrderedDict.get_setItem]
        split_ifs
        · intro same
          exact Option.some.inj same ▸ Nat.pos_of_ne_zero last
        · exact h.positive q m
      · unfold TokenizerCache.refs
        rw [OrderedDict.get_setItem]
        split_ifs with same
        · rw [same, present]
          rfl
        · rfl

theorem releaseProcessor (h : Tracked t) (loaded : Loaded) :
    Tracked (Pool.releaseProcessor t loaded.processor) ∧
      ∀ q, (Pool.releaseProcessor t loaded.processor).refs q =
        t.refs q - if uses q loaded then 1 else 0 := by
  unfold Pool.releaseProcessor uses
  cases loaded.processor.sharedTokenizer with
  | none => exact ⟨h, fun q => rfl⟩
  | some path =>
    obtain ⟨tracked, refs⟩ := h.release path
    refine ⟨tracked, fun q => (refs q).trans ?_⟩
    by_cases same : q = path
    · rw [if_pos same, if_pos (by rw [same]; exact decide_eq_true rfl)]
    · rw [if_neg same, if_neg (by simpa using Ne.symm same)]

end Tracked

/-- The invariant of a run, with what has leaked so far. -/
structure Counted (lost : List String) (p : Pool τ) : Prop where
  leaked : p.leaked = lost
  tracked : Tracked p.tokenizers
  counts : ∀ path, p.tokenizers.refs path = p.users path + lost.count path
  uncached : ∀ l, p.manager.building = some l → l.key ∉ p.manager.processorCache
  stage : p.stage = .start ∨ ∃ l path, p.manager.building = some l ∧
    l.config.config.sharedTokenizer = some path ∧
    (p.stage = .loading path ∧ p.tokenizers.refs path = 0 ∨ p.stage = .acquired path)

/-- Exactness fails only through a construction that raised. -/
theorem Counted.exact_iff (h : Counted lost p) : Exact p ↔ lost = [] := by
  constructor
  · intro exact
    by_contra some
    obtain ⟨path, rest, rfl⟩ := List.exists_cons_of_ne_nil some
    have counts := (exact.counts path).symm.trans (h.counts path)
    rw [List.count_cons_self] at counts
    omega
  · intro none
    have counts (path : String) : p.tokenizers.refs path = p.users path := by
      rw [h.counts, none, List.count_nil, Nat.add_zero]
    exact ⟨counts, fun path => by rw [← counts, h.tracked.refs_pos]⟩

/-- The cache has the same Processors, in whatever order, and the same load is
under way. -/
structure SameCache (s s' : State) : Prop where
  building : s'.building = s.building
  mem : ∀ key, key ∈ s'.processorCache ↔ key ∈ s.processorCache
  count : ∀ holds, s'.processorCache.countValues holds = s.processorCache.countValues holds

namespace SameCache

variable {s s' : State}

theorem of_eq (cache : s'.processorCache = s.processorCache) (building : s'.building = s.building) :
    SameCache s s' :=
  ⟨building, fun key => by rw [cache], fun holds => by rw [cache]⟩

theorem touch (s : State) (key : Key) (now : Nat) : SameCache s (s.touch key now) := by
  unfold State.touch
  split_ifs
  · exact ⟨rfl, fun key' => OrderedDict.mem_moveToEnd .., fun holds =>
      OrderedDict.countValues_moveToEnd ..⟩
  · exact of_eq rfl rfl

theorem serve (h : SameCache s s') (key : Key) (processor : Loaded) :
    SameCache s (s'.serve key processor) :=
  ⟨h.building, h.mem, h.count⟩

theorem loadProcessor (s : State) (key : Key) (now : Nat) :
    SameCache s (s.loadProcessor key now) := by
  unfold State.loadProcessor
  split
  · exact (touch s key now).serve key _
  · split <;> exact of_eq rfl rfl

/-- The actions in which no Processor leaves the cache add none either. -/
theorem calm {a : Action} (calm : Pool.Calm a) (step : Step s a s') : SameCache s s' := by
  cases step with
  | registerStatic r resolve address now =>
    unfold State.registerStatic
    split <;> exact of_eq rfl rfl
  | registerDynamic r resolve persistToDb address now =>
    unfold State.registerDynamic
    split <;> exact of_eq rfl rfl
  | persistReturned i key => exact of_eq rfl rfl
  | registerFromConfig config => exact of_eq rfl rfl
  | getProcessor key now =>
    unfold State.getProcessorAsync
    split
    · exact (touch s key now).serve key _
    · exact loadProcessor s key now
  | tryGetOrSync key now =>
    unfold State.tryGetOrSyncFromDb
    split
    · exact (touch s key now).serve key _
    · split
      · exact loadProcessor s key now
      · exact of_eq rfl rfl
  | fetchReturned i row now key =>
    cases row with
    | none => exact of_eq rfl rfl
    | some config =>
      have loaded := loadProcessor { s with
        fetching := s.fetching.eraseIdx i
        dynamicConfigs := s.dynamicConfigs.setItem key config } key now
      exact ⟨loaded.building, loaded.mem, loaded.count⟩
  | fetchFailed i key => exact of_eq rfl rfl
  | lockWaitCancelled i l => exact of_eq rfl rfl
  | persistFailed | unregisterDynamic | unregisterByKey | fullSync | lockAcquired | buildReturned
  | buildFailed | evictIdle | clearCache => exact calm.elim

end SameCache

theorem State.builtProcessor_current {s : State} {l : Load}
    (current : s.effective l.key = some l.config)
    (loaded : Loaded) (now : Nat) : s.builtProcessor l loaded now = State.serve { s with
      building := none
      processorCache := s.processorCache.setItem l.key loaded
      lastAccessTime := s.lastAccessTime.setItem l.key now } l.key loaded := by
  change State.effective { s with building := none } l.key = some l.config at current
  unfold State.builtProcessor
  dsimp only
  rw [current]
  exact if_pos rfl

theorem State.builtProcessor_replaced {s : State} {l : Load}
    (replaced : s.effective l.key ≠ some l.config) (loaded : Loaded) (now : Nat) :
    s.builtProcessor l loaded now = { s with building := none } := by
  change State.effective { s with building := none } l.key ≠ some l.config at replaced
  unfold State.builtProcessor
  dsimp only
  split
  · rfl
  · rename_i current effective
    exact if_neg fun same => replaced (effective.trans (congrArg some same))

namespace Counted

/-- The users, and what the invariant says of the load under way, do not change. -/
theorem sameCache (h : Counted lost p) {s : State} (same : SameCache p.manager s) :
    Counted lost { p with manager := s } := by
  have users (path : String) : ({ p with manager := s } : Pool τ).users path = p.users path :=
    congrArg (· + _) (same.count _)
  refine ⟨h.leaked, h.tracked, fun path => (h.counts path).trans (by rw [users]), fun l busy => ?_,
    ?_⟩
  · rw [same.mem]
    exact h.uncached l (same.building ▸ busy)
  · change p.stage = .start ∨ ∃ l path, s.building = some l ∧ _
    rw [same.building]
    exact h.stage

/-- A Processor that leaves the cache gives its reference back. -/
theorem dropProcessor (h : Counted lost p) (key : Key) : Counted lost (p.dropProcessor key) := by
  unfold Pool.dropProcessor
  dsimp only
  split
  · rename_i removed present
    obtain ⟨tracked, refs⟩ := h.tracked.releaseProcessor removed
    refine ⟨h.leaked, tracked, fun path => (refs path).trans ?_, fun l busy mem => ?_, ?_⟩
    · have counts := h.counts path
      have gone := OrderedDict.countValues_pop (uses path) present
      unfold Pool.users at counts
      unfold Pool.users Pool.releaseProcessorAsync State.dropProcessor
      dsimp only
      omega
    · exact h.uncached l busy ((OrderedDict.mem_pop ..).mp mem).2
    · obtain start | ⟨l, path, busy, needed, loading | acquired⟩ := h.stage
      · exact .inl start
      · refine .inr ⟨l, path, busy, needed, .inl ⟨loading.1, (refs path).trans ?_⟩⟩
        rw [loading.2, Nat.zero_sub]
      · exact .inr ⟨l, path, busy, needed, .inr acquired⟩
  · rename_i absent
    have missing := OrderedDict.get_eq_none.mp absent
    exact h.sameCache (.of_eq (OrderedDict.pop_of_notMem missing) rfl)

theorem foldl {α : Type} {op : Pool τ → α → Pool τ}
    (step : ∀ p a, Counted lost p → Counted lost (op p a))
    (h : Counted lost p) (items : List α) : Counted lost (items.foldl op p) := by
  induction items generalizing p with
  | nil => exact h
  | cons a items ih => exact ih (step p a h)

theorem evictOne (h : Counted lost p) : Counted lost p.evictOne := by
  unfold Pool.evictOne
  split
  · exact h.dropProcessor _
  · exact h

theorem evictWhileFull (h : Counted lost p) (fuel : Nat) :
    Counted lost (p.evictWhileFull fuel) := by
  induction fuel generalizing p with
  | zero => exact h
  | succ fuel ih =>
    unfold Pool.evictWhileFull
    split_ifs
    · exact ih h.evictOne
    · exact h

theorem unregisterByKey (h : Counted lost p) (key : Key) : Counted lost (p.unregisterByKey key) :=
  (h.sameCache (s := { p.manager with
    dynamicConfigs := p.manager.dynamicConfigs.pop key }) (.of_eq rfl rfl)).dropProcessor key

theorem unregisterPresent (h : Counted lost p) (key : Key) :
    Counted lost (p.unregisterPresent key) := by
  unfold Pool.unregisterPresent
  split_ifs
  · exact h.unregisterByKey key
  · exact h

theorem syncModel (h : Counted lost p) (config : ConfigRef) :
    Counted lost (p.syncModel config) := by
  have stored := h.sameCache (s := p.manager.registerFromConfig config) (.of_eq rfl rfl)
  unfold Pool.syncModel
  dsimp only
  split
  · exact stored
  · split_ifs
    · exact h
    · exact stored.dropProcessor config.key

theorem fullSync (h : Counted lost p) (dbModels : List ConfigRef) :
    Counted lost (p.fullSync dbModels) :=
  foldl (fun _ key h => unregisterByKey h key)
    (foldl (fun _ config h => syncModel h config) h dbModels) _

theorem evictIdleProcessors (h : Counted lost p) (now : Nat) :
    Counted lost (p.evictIdleProcessors now) := by
  unfold Pool.evictIdleProcessors
  dsimp only
  split_ifs
  · exact h
  · exact foldl (fun _ key h => dropProcessor h key) h _

/-- Without a load under way no tokenizer is waited for or held. -/
theorem start_of_free (h : Counted lost p) (free : p.manager.building = none) :
    p.stage = .start := by
  obtain start | ⟨l, path, busy, -⟩ := h.stage
  · exact start
  · rw [free] at busy
    cases busy

theorem lockAcquired (h : Counted lost p) (free : p.manager.building = none) (load : Load)
    (now : Nat) : Counted lost (p.lockAcquired load now) := by
  unfold Pool.lockAcquired
  split
  · rename_i processor present
    refine h.sameCache ?_
    unfold State.lockAcquired
    rw [present]
    exact (SameCache.touch p.manager load.key now).serve load.key processor
  · rename_i absent
    have evicted := h.evictWhileFull (OrderedDict.size p.manager.processorCache)
    have shrinks := Bookkeeping.Shrinks.evictWhileFull
      (OrderedDict.size p.manager.processorCache) p.manager
    rw [← Pool.manager_evictWhileFull] at shrinks
    have start := evicted.start_of_free (by
      by_contra busy
      exact shrinks.building busy free)
    refine ⟨evicted.leaked, evicted.tracked, fun path => ?_, fun l busy mem => ?_, .inl rfl⟩
    · refine (evicted.counts path).trans ?_
      unfold Pool.users
      rw [start]
    · obtain rfl := Option.some.inj busy
      exact OrderedDict.get_eq_none.mp absent (shrinks.configured _ mem).1

theorem release_all (tracked : Tracked p.tokenizers) (items : List Loaded) :
    let p' := items.foldl Pool.releaseProcessorAsync p
    p'.stage = p.stage ∧ p'.leaked = p.leaked ∧ Tracked p'.tokenizers ∧
      ∀ q, p'.tokenizers.refs q = p.tokenizers.refs q - items.countP (uses q) := by
  induction items generalizing p with
  | nil => exact ⟨rfl, rfl, tracked, fun q => rfl⟩
  | cons loaded items ih =>
    obtain ⟨tracked', refs⟩ := tracked.releaseProcessor loaded
    obtain ⟨stage, leaked, released, rest⟩ := ih (p := p.releaseProcessorAsync loaded) tracked'
    refine ⟨stage, leaked, released, fun q => (rest q).trans ?_⟩
    rw [List.countP_cons]
    have one := refs q
    unfold Pool.releaseProcessorAsync
    dsimp only
    omega

theorem clearCache (h : Counted lost p) : Counted lost p.clearCache := by
  obtain ⟨stage, leaked, tracked, refs⟩ := release_all h.tracked p.manager.processorCache.values
  have all (q : String) : p.manager.processorCache.values.countP (uses q) =
      p.manager.processorCache.countValues (uses q) := by
    unfold OrderedDict.values OrderedDict.countValues
    rw [List.countP_reverse, List.countP_map]
    rfl
  refine ⟨leaked.trans h.leaked, tracked, fun q => (refs q).trans ?_,
    fun l busy => AList.notMem_empty _, ?_⟩
  · have counts := h.counts q
    unfold Pool.users at counts
    unfold Pool.users Pool.clearCache State.clearCache
    dsimp only
    rw [all, stage, counts, Nat.add_assoc, Nat.add_sub_cancel_left]
    exact congrArg (· + _) (Nat.zero_add _).symm
  · unfold Pool.clearCache State.clearCache
    dsimp only
    rw [stage]
    obtain start | ⟨l, path, busy, needed, loading | acquired⟩ := h.stage
    · exact .inl start
    · refine .inr ⟨l, path, busy, needed, .inl ⟨loading.1, (refs path).trans ?_⟩⟩
      rw [loading.2, Nat.zero_sub]
    · exact .inr ⟨l, path, busy, needed, .inr acquired⟩

theorem getOrLoad (h : Counted lost p) {l : Load} {path : String}
    (busy : p.manager.building = some l)
    (start : p.stage = .start) (needed : l.config.config.sharedTokenizer = some path) :
    Counted lost (p.getOrLoad path) := by
  have users (q : String) : p.users q = p.manager.processorCache.countValues (uses q) := by
    unfold Pool.users
    rw [start, if_neg (by simp), Nat.add_zero]
  unfold Pool.getOrLoad
  split_ifs with there
  · obtain ⟨tracked, refs⟩ := h.tracked.acquire there
    refine ⟨h.leaked, tracked, fun q => (refs q).trans ?_, h.uncached,
      .inr ⟨l, path, busy, needed, .inr rfl⟩⟩
    rw [h.counts, users]
    unfold Pool.users
    simp only [Stage.acquired.injEq, eq_comm]
    omega
  · have zero : p.tokenizers.refs path = 0 :=
      Nat.eq_zero_of_not_pos fun pos => there ((h.tracked.refs_pos path).mp pos)
    refine ⟨h.leaked, h.tracked, fun q => (h.counts q).trans ?_, h.uncached,
      .inr ⟨l, path, busy, needed, .inl ⟨rfl, zero⟩⟩⟩
    rw [users]
    unfold Pool.users
    simp

theorem tokenizerLoaded (h : Counted lost p) {path : String} (loading : p.stage = .loading path)
    (tokenizer : τ) : Counted lost { p with
      tokenizers := p.tokenizers.store path tokenizer, stage := .acquired path } := by
  obtain start | ⟨l, path', busy, needed, ⟨stage, zero⟩ | acquired⟩ := h.stage
  · rw [loading] at start
    cases start
  · rw [loading, Stage.loading.injEq] at stage
    subst stage
    have absent : path ∉ p.tokenizers.cache := by
      rw [← h.tracked.refs_pos, zero]
      exact lt_irrefl 0
    obtain ⟨tracked, refs⟩ := h.tracked.store absent tokenizer
    refine ⟨h.leaked, tracked, fun q => (refs q).trans ?_, h.uncached,
      .inr ⟨l, path, busy, needed, .inr rfl⟩⟩
    rw [h.counts]
    unfold Pool.users
    rw [loading]
    simp only [Stage.acquired.injEq, reduceCtorEq, if_false, eq_comm]
    omega
  · rw [loading] at acquired
    cases acquired

/-- A construction that is given up with no tokenizer, or with one that leaks. -/
theorem abandon (h : Counted lost p) {leaked : List String}
    (held : ∀ q, leaked.count q = lost.count q + if p.stage = .acquired q then 1 else 0) :
    Counted leaked { p with
      manager := { p.manager with building := none }, stage := .start, leaked := leaked } := by
  refine ⟨rfl, h.tracked, fun q => (h.counts q).trans ?_, fun l busy => (nomatch busy), .inl rfl⟩
  rw [held]
  unfold Pool.users
  simp only [reduceCtorEq, if_false]
  omega

theorem constructing_cases {l : Load} (ready : p.constructing = some l) :
    p.manager.building = some l ∧
      ∀ q, p.stage = .acquired q ↔ l.config.config.sharedTokenizer = some q := by
  obtain ⟨busy, fits⟩ := Option.filter_eq_some_iff.mp ready
  refine ⟨busy, fun q => ?_⟩
  split at fits
  · rename_i needed stage
    rw [needed, stage]
    simp
  · rename_i path acquired needed stage
    rw [needed, stage, of_decide_eq_true fits]
    simp
  · cases fits

/-- The new Processor takes over the reference of its construction, or gives it back. -/
theorem builtProcessor (h : Counted lost p) {l : Load} {loaded : Loaded}
    (ready : p.constructing = some l) (built : load l.config.config = some loaded) (now : Nat) :
    Counted lost (p.builtProcessor l loaded now) := by
  obtain ⟨busy, held⟩ := constructing_cases ready
  have shares (q : String) : (if uses q loaded then 1 else 0) =
      if p.stage = .acquired q then 1 else 0 := by
    unfold uses
    rw [loaded.sharedTokenizer_eq, load_config built]
    simp only [decide_eq_true_eq, held]
  unfold Pool.builtProcessor
  dsimp only
  split_ifs with current
  · rw [State.builtProcessor_current current]
    refine ⟨h.leaked, h.tracked, fun q => (h.counts q).trans ?_, fun l busy => (nomatch busy),
      .inl rfl⟩
    unfold Pool.users State.serve
    dsimp only
    rw [OrderedDict.countValues_setItem _ _ (h.uncached l busy), shares]
    rfl
  · rw [State.builtProcessor_replaced current]
    obtain ⟨tracked, refs⟩ := h.tracked.releaseProcessor loaded
    refine ⟨h.leaked, tracked, fun q => (refs q).trans ?_, fun l busy => (nomatch busy), .inl rfl⟩
    have counts := h.counts q
    unfold Pool.users at counts
    unfold Pool.users Pool.releaseProcessorAsync
    simp only [reduceCtorEq, if_false]
    rw [shares]
    omega

end Counted

/-- No Processor fails to be constructed once its tokenizer is acquired. -/
def Constructs (p : Pool τ) : PoolAction τ → Prop
  | .constructionRaised => ∀ path, p.stage ≠ .acquired path
  | _ => True

/-- An action keeps what has leaked, or adds the tokenizer of a Processor that
could not be constructed. -/
theorem act_counted {p' : Pool τ} {a : PoolAction τ} (h : Counted lost p)
    (step : Pool.Step p a p') :
    Counted lost p' ∧ Constructs p a ∨ (∃ path, Counted (path :: lost) p') ∧ ¬Constructs p a := by
  obtain rfl := h.leaked
  have none {q : String} (other : p.stage ≠ .acquired q) :
      p.leaked.count q = p.leaked.count q + if p.stage = .acquired q then 1 else 0 := by
    rw [if_neg other, Nat.add_zero]
  cases step with
  | calm a s calm step => exact .inl ⟨h.sameCache (.calm calm step), trivial⟩
  | persistFailed i key waits =>
    have resumed := h.sameCache (s := { p.manager with
      persisting := p.manager.persisting.eraseIdx i }) (.of_eq rfl rfl)
    exact .inl ⟨resumed.unregisterPresent key, trivial⟩
  | unregisterDynamic key => exact .inl ⟨h.unregisterPresent key, trivial⟩
  | unregisterByKey key => exact .inl ⟨h.unregisterByKey key, trivial⟩
  | fullSync dbModels => exact .inl ⟨h.fullSync dbModels, trivial⟩
  | lockAcquired i now l free waits endless =>
    have resumed := h.sameCache (s := { p.manager with
      waiting := p.manager.waiting.eraseIdx i }) (.of_eq rfl rfl)
    exact .inl ⟨resumed.lockAcquired free l now, trivial⟩
  | evictIdle now => exact .inl ⟨h.evictIdleProcessors now, trivial⟩
  | clearCache => exact .inl ⟨h.clearCache, trivial⟩
  | getOrLoad l path busy start needed => exact .inl ⟨h.getOrLoad busy start needed, trivial⟩
  | tokenizerLoaded path tokenizer loading =>
    exact .inl ⟨h.tokenizerLoaded loading tokenizer, trivial⟩
  | tokenizerFailed l path busy loading =>
    have abandoned := h.abandon fun q => none (by rw [loading]; exact fun same => nomatch same)
    exact .inl ⟨abandoned, trivial⟩
  | constructed now l loaded ready built => exact .inl ⟨h.builtProcessor ready built now, trivial⟩
  | raised l busy start =>
    have other (q : String) : p.stage ≠ .acquired q := by
      rw [start]
      exact fun same => nomatch same
    exact .inl ⟨h.abandon fun q => none (other q), other⟩
  | leaked l path busy acquired =>
    refine .inr ⟨⟨path, h.abandon fun q => ?_⟩, fun constructs => constructs path acquired⟩
    rw [List.count_cons, acquired]
    simp only [Stage.acquired.injEq, beq_iff_eq]

theorem initial_counted (τ : Type) (cacheMaxSize idleTimeout : Nat) :
    Counted [] (Pool.initial τ cacheMaxSize idleTimeout) := by
  refine ⟨rfl, ⟨fun path => ?_, fun path n there => ?_, rfl⟩, fun path => rfl, fun l busy => ?_,
    .inl rfl⟩
  · exact iff_of_false (AList.notMem_empty path) (AList.notMem_empty path)
  · cases there
  · cases busy

theorem step_counted {p p' : Pool τ} {a : PoolAction τ} (h : Counted lost p)
    (taken : (Pool.machine τ).step p a = some p') :
    Counted lost p' ∧ Constructs p a ∨ (∃ path, Counted (path :: lost) p') ∧ ¬Constructs p a := by
  obtain ⟨-, q, step, rfl⟩ := Pool.step_cases taken
  have ticked {lost : List String} (h : Counted lost q) :
      Counted lost { q with clock := a.now.getD p.clock } :=
    ⟨h.leaked, h.tracked, h.counts, h.uncached, h.stage⟩
  obtain ⟨kept, constructs⟩ | ⟨⟨path, more⟩, raises⟩ := act_counted h step
  · exact .inl ⟨ticked kept, constructs⟩
  · exact .inr ⟨⟨path, ticked more⟩, raises⟩

theorem along_counted (cacheMaxSize idleTimeout : Nat) (as : List (PoolAction τ)) :
    (Pool.machine τ).Along (fun p => ∃ lost, Counted lost p)
      (Pool.initial τ cacheMaxSize idleTimeout) as := by
  refine Machine.along_of_step (fun p a p' h taken => ?_) ⟨[], initial_counted τ _ _⟩ as
  obtain ⟨lost, counted⟩ := h
  obtain ⟨kept, -⟩ | ⟨⟨path, more⟩, -⟩ := step_counted counted taken
  · exact ⟨lost, kept⟩
  · exact ⟨path :: lost, more⟩

/-- In a run the reference counts are exact in every state if and only if no
Processor fails to be constructed once its tokenizer is acquired. -/
theorem run_exact_iff (cacheMaxSize idleTimeout : Nat) (as : List (PoolAction τ)) :
    (Pool.machine τ).Along Exact (Pool.initial τ cacheMaxSize idleTimeout) as ↔
      (Pool.machine τ).Guarded Constructs (Pool.initial τ cacheMaxSize idleTimeout) as := by
  have step (p : Pool τ) (a : PoolAction τ) (p' : Pool τ) (h : Counted [] p)
      (taken : (Pool.machine τ).step p a = some p') : Counted [] p' ↔ Constructs p a := by
    obtain ⟨kept, constructs⟩ | ⟨⟨path, more⟩, raises⟩ := step_counted h taken
    · exact iff_of_true kept constructs
    · refine iff_of_false (fun kept => ?_) raises
      cases kept.leaked.symm.trans more.leaked
  refine Iff.trans ⟨fun exact => ?_, fun counted => ?_⟩
    (Machine.along_iff_guarded step (initial_counted τ cacheMaxSize idleTimeout) as)
  · refine ((along_counted cacheMaxSize idleTimeout as).and exact).mono fun p h => ?_
    obtain ⟨⟨lost, counted⟩, exact⟩ := h
    exact counted.exact_iff.mp exact ▸ counted
  · exact counted.mono fun p h => h.exact_iff.mpr rfl

/-- The constructor of the "qwen3_coder" parser raises for a tokenizer without
the tool call tokens. -/
theorem tokenizer_leaked :
    ¬∀ (cacheMaxSize idleTimeout : Nat) (as : List (PoolAction Unit)),
      (Pool.machine Unit).Along Exact (Pool.initial Unit cacheMaxSize idleTimeout) as := by
  intro all
  let config : ModelConfig :=
    { url := "http://infer", apiKey := "", tokenizerPath := some "/models/m", runId := ""
      modelName := "m", tokenInTokenOut := true, toolParser := "qwen3_coder", reasoningParser := ""
      updatedAt := none }
  obtain ⟨p, ran, refs, users⟩ : ∃ p, (Pool.machine Unit).exec (Pool.initial Unit 32 0)
      [.manager (.registerFromConfig ⟨0, config⟩), .manager (.getProcessor ("", "m") 0),
        .manager (.lockAcquired 0 0), .getOrLoad, .tokenizerLoaded (), .constructionRaised] =
        some p ∧ p.tokenizers.refs "/models/m" = 1 ∧ p.users "/models/m" = 0 :=
    ⟨_, rfl, rfl, rfl⟩
  have counts := ((all 32 0 _).exec ran).counts "/models/m"
  rw [refs, users] at counts
  cases counts

end TrajProxy.Manager
