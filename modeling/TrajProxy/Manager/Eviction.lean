import TrajProxy.Manager.Tokenizers

/-! The eviction loop of `_load_processor`. The cache is ordered by access time,
oldest first, so the entry `popitem` takes is a least recently used one; the
references it gives back are there. The loop ends unless the configured size,
which nothing checks, lets even an empty cache count as full. -/

namespace TrajProxy.Manager
open Transition

variable {τ : Type} {clock : Nat} {s s' : State} {key : Key}

/-- Newer entries were accessed later, and none in the future. -/
structure Aged (clock : Nat) (s : State) : Prop where
  past : ∀ key t, s.lastAccessTime.get key = some t → t ≤ clock
  order : s.processorCache.keys.Pairwise fun newer older =>
    ∀ t t', s.lastAccessTime.get newer = some t → s.lastAccessTime.get older = some t' → t' ≤ t

namespace Aged

theorem congr (h : Aged clock s) (cache : s'.processorCache = s.processorCache)
    (times : s'.lastAccessTime = s.lastAccessTime) : Aged clock s' := by
  refine ⟨?_, ?_⟩
  · rw [times]
    exact h.past
  · rw [times, cache]
    exact h.order

theorem later (h : Aged clock s) {now : Nat} (le : clock ≤ now) : Aged now s :=
  ⟨fun key t there => Nat.le_trans (h.past key t there) le, h.order⟩

theorem dropProcessor (h : Aged clock s) (key : Key) : Aged clock (s.dropProcessor key) := by
  have old {k : Key} {t : Nat} (there : (s.lastAccessTime.pop key).get k = some t) :
      s.lastAccessTime.get k = some t := by
    rw [OrderedDict.get_pop] at there
    split_ifs at there
    exact there
  refine ⟨fun k t there => h.past k t (old there), ?_⟩
  refine (h.order.sublist (OrderedDict.keys_pop_sublist ..)).imp ?_
  intro newer older imp t t' first second
  exact imp t t' (old first) (old second)

/-- The entry that is accessed now comes first. -/
theorem newest (h : Aged clock s) {rest : List Key} (keys : s'.processorCache.keys = key :: rest)
    (sub : rest.Sublist s.processorCache.keys)
    (times : s'.lastAccessTime = s.lastAccessTime.setItem key clock) : Aged clock s' := by
  have past (k : Key) (t : Nat) (there : s'.lastAccessTime.get k = some t) : t ≤ clock := by
    rw [times, OrderedDict.get_setItem] at there
    split_ifs at there
    · exact Nat.le_of_eq (Option.some.inj there).symm
    · exact h.past k t there
  refine ⟨past, ?_⟩
  have nodup := s'.processorCache.keys_nodup
  rw [keys, List.nodup_cons] at nodup
  rw [keys, List.pairwise_cons]
  refine ⟨fun older _ t t' now then_ => ?_, ?_⟩
  · rw [times, OrderedDict.get_setItem_self, Option.some_inj] at now
    exact now ▸ past older t' then_
  · refine (h.order.sublist sub).imp_of_mem ?_
    intro newer older memNewer memOlder imp t t' first second
    have other {k : Key} (mem : k ∈ rest) : k ≠ key := fun same => nodup.1 (same ▸ mem)
    rw [times, OrderedDict.get_setItem_ne _ _ (other memNewer)] at first
    rw [times, OrderedDict.get_setItem_ne _ _ (other memOlder)] at second
    exact imp t t' first second

theorem touch (h : Aged clock s) (key : Key) : Aged clock (s.touch key clock) := by
  unfold State.touch
  split_ifs with cached
  · obtain ⟨rest, keys, sub⟩ := OrderedDict.keys_moveToEnd cached
    exact h.newest keys sub rfl
  · exact h

theorem foldl {α : Type} {op : State → α → State} (step : ∀ s a, Aged clock s → Aged clock (op s a))
    (h : Aged clock s) (items : List α) : Aged clock (items.foldl op s) := by
  induction items generalizing s with
  | nil => exact h
  | cons a items ih => exact ih (step s a h)

theorem evictOne (h : Aged clock s) : Aged clock s.evictOne := by
  unfold State.evictOne
  split
  · exact h.dropProcessor _
  · exact h

theorem evictWhileFull (h : Aged clock s) (fuel : Nat) : Aged clock (s.evictWhileFull fuel) := by
  induction fuel generalizing s with
  | zero => exact h
  | succ fuel ih =>
    unfold State.evictWhileFull
    split_ifs
    · exact ih h.evictOne
    · exact h

theorem unregisterByKey (h : Aged clock s) (key : Key) : Aged clock (s.unregisterByKey key) := by
  have removed : Aged clock { s with dynamicConfigs := s.dynamicConfigs.pop key } := h.congr rfl rfl
  exact removed.dropProcessor key

theorem unregisterPresent (h : Aged clock s) (key : Key) :
    Aged clock (if key ∈ s.dynamicConfigs then s.unregisterByKey key else s) := by
  split_ifs
  · exact h.unregisterByKey key
  · exact h

theorem syncModel (h : Aged clock s) (config : ConfigRef) : Aged clock (s.syncModel config) := by
  have stored : Aged clock (s.registerFromConfig config) := h.congr rfl rfl
  unfold State.syncModel
  split
  · exact stored
  · split_ifs
    · exact h
    · exact stored.dropProcessor config.key

theorem loadProcessor (h : Aged clock s) (key : Key) : Aged clock (s.loadProcessor key clock) := by
  unfold State.loadProcessor
  split
  · exact (h.touch key).congr rfl rfl
  · split <;> exact h.congr rfl rfl

theorem clearCache (s : State) : Aged clock s.clearCache :=
  ⟨fun _ _ there => (nomatch there), List.Pairwise.nil⟩

/-- A new entry takes the first place. -/
theorem builtProcessor (h : Aged clock s) {l : Load} (absent : l.key ∉ s.processorCache)
    (loaded : Loaded) : Aged clock (s.builtProcessor l loaded clock) := by
  by_cases current : s.effective l.key = some l.config
  · rw [State.builtProcessor_current current]
    refine h.newest ?_ (List.Sublist.refl _) rfl
    exact (OrderedDict.keys_setItem ..).trans (if_neg fun mem => absent (AList.mem_keys.mpr mem))
  · rw [State.builtProcessor_replaced current]
    exact h.congr rfl rfl

theorem step {a : Action} (h : Aged clock s) (step : Step s a s')
    (uncached : ∀ l, s.building = some l → l.key ∉ s.processorCache)
    (timed : ∀ now, a.now = some now → now = clock) : Aged clock s' := by
  cases step with
  | registerStatic r resolve address now =>
    unfold State.registerStatic
    split <;> exact h.congr rfl rfl
  | registerDynamic r resolve persistToDb address now =>
    unfold State.registerDynamic
    split <;> exact h.congr rfl rfl
  | persistReturned i key => exact h.congr rfl rfl
  | persistFailed i key =>
    have resumed : Aged clock { s with persisting := s.persisting.eraseIdx i } := h.congr rfl rfl
    exact resumed.unregisterPresent key
  | unregisterDynamic key => exact h.unregisterPresent key
  | registerFromConfig config => exact h.congr rfl rfl
  | unregisterByKey key => exact h.unregisterByKey key
  | fullSync dbModels =>
    exact foldl (fun _ key h => unregisterByKey h key)
      (foldl (fun _ config h => syncModel h config) h dbModels) _
  | getProcessor key now =>
    obtain rfl := timed now rfl
    unfold State.getProcessorAsync
    split
    · exact (h.touch key).congr rfl rfl
    · exact h.loadProcessor key
  | tryGetOrSync key now =>
    obtain rfl := timed now rfl
    unfold State.tryGetOrSyncFromDb
    split
    · exact (h.touch key).congr rfl rfl
    · split
      · exact h.loadProcessor key
      · exact h.congr rfl rfl
  | fetchReturned i row now key =>
    obtain rfl := timed now rfl
    cases row with
    | none => exact h.congr rfl rfl
    | some config =>
      have stored : Aged now { s with
          fetching := s.fetching.eraseIdx i
          dynamicConfigs := s.dynamicConfigs.setItem key config } := h.congr rfl rfl
      exact stored.loadProcessor key
  | fetchFailed i key => exact h.congr rfl rfl
  | lockAcquired i now l free waits endless =>
    obtain rfl := timed now rfl
    have resumed : Aged now { s with waiting := s.waiting.eraseIdx i } := h.congr rfl rfl
    unfold State.lockAcquired
    split
    · exact (resumed.touch l.key).congr rfl rfl
    · exact (resumed.evictWhileFull _).congr rfl rfl
  | lockWaitCancelled i l => exact h.congr rfl rfl
  | buildReturned now l loaded busy built =>
    obtain rfl := timed now rfl
    exact h.builtProcessor (uncached l busy) loaded
  | buildFailed l => exact h.congr rfl rfl
  | evictIdle now =>
    unfold State.evictIdleProcessors
    dsimp only
    split_ifs
    · exact h
    · exact foldl (fun _ key h => dropProcessor h key) h _
  | clearCache => exact clearCache s

end Aged

/-- The loop in front of an insertion, for the integer of the configuration;
`none` when it has not ended after `fuel` rounds. -/
def Pool.evictionLoop (cacheMaxSize : Int) : Nat → Pool τ → Option (Pool τ)
  | 0, _ => none
  | fuel + 1, p =>
    if cacheMaxSize ≤ OrderedDict.size p.manager.processorCache then
      evictionLoop cacheMaxSize fuel p.evictOne
    else some p

theorem evictionLoop_eq {p : Pool τ} (positive : 0 < p.manager.cacheMaxSize) (fuel : Nat)
    (enough : OrderedDict.size p.manager.processorCache ≤ fuel) :
    p.evictionLoop p.manager.cacheMaxSize (fuel + 1) = some (p.evictWhileFull fuel) := by
  induction fuel generalizing p with
  | zero =>
    unfold Pool.evictionLoop
    rw [if_neg (by omega)]
    rfl
  | succ fuel ih =>
    have same : p.evictOne.manager.cacheMaxSize = p.manager.cacheMaxSize := by
      rw [Pool.manager_evictOne]
      exact (Bookkeeping.Shrinks.evictOne p.manager).maxSize
    have smaller := Bookkeeping.size_evictOne p.manager
    rw [← Pool.manager_evictOne] at smaller
    unfold Pool.evictionLoop Pool.evictWhileFull
    by_cases full : p.manager.cacheMaxSize ≤ OrderedDict.size p.manager.processorCache
    · rw [if_pos (by omega), if_pos full, ← same]
      exact ih (by omega) (by omega)
    · rw [if_neg (by omega), if_neg full]

/-- A cache that may hold nothing is never small enough. -/
theorem evictionLoop_endless {cacheMaxSize : Int} (empty : cacheMaxSize ≤ 0) (fuel : Nat)
    (p : Pool τ) : p.evictionLoop cacheMaxSize fuel = none := by
  induction fuel generalizing p with
  | zero => rfl
  | succ fuel ih =>
    unfold Pool.evictionLoop
    rw [if_pos (by omega)]
    exact ih p.evictOne

/-- What the loop leaves: the newest entries, as they were. -/
structure Newest (s s' : State) : Prop where
  front : s'.processorCache.keys <+: s.processorCache.keys
  kept : ∀ key ∈ s'.processorCache, s'.processorCache.get key = s.processorCache.get key ∧
    s'.lastAccessTime.get key = s.lastAccessTime.get key

theorem newest_evictOne (s : State) : Newest s s.evictOne := by
  unfold State.evictOne
  split
  · rename_i key loaded oldest
    refine ⟨⟨[key], (OrderedDict.keys_pop_first oldest).symm⟩, fun key' mem => ?_⟩
    have other := ((OrderedDict.mem_pop ..).mp mem).1
    unfold State.dropProcessor
    rw [OrderedDict.get_pop, OrderedDict.get_pop, if_neg other, if_neg other]
    exact ⟨rfl, rfl⟩
  · exact ⟨List.prefix_rfl, fun _ _ => ⟨rfl, rfl⟩⟩

theorem newest_evictWhileFull (fuel : Nat) (s : State) : Newest s (s.evictWhileFull fuel) := by
  induction fuel generalizing s with
  | zero => exact ⟨List.prefix_rfl, fun _ _ => ⟨rfl, rfl⟩⟩
  | succ fuel ih =>
    unfold State.evictWhileFull
    split_ifs
    · have one := newest_evictOne s
      have rest := ih s.evictOne
      refine ⟨rest.front.trans one.front, fun key mem => ?_⟩
      have between : key ∈ s.evictOne.processorCache :=
        AList.mem_keys.mpr (rest.front.subset (AList.mem_keys.mp mem))
      obtain ⟨processor, time⟩ := rest.kept key mem
      obtain ⟨processor', time'⟩ := one.kept key between
      exact ⟨processor.trans processor', time.trans time'⟩
    · exact ⟨List.prefix_rfl, fun _ _ => ⟨rfl, rfl⟩⟩

/-- What the loop must do before a Processor is inserted. -/
structure MakesRoom (cacheMaxSize : Int) (p p' : Pool τ) : Prop where
  noError : p'.tokenizers.keyError = false
  room : OrderedDict.size p'.manager.processorCache < cacheMaxSize
  kept : ∀ key ∈ p'.manager.processorCache,
    p'.manager.processorCache.get key = p.manager.processorCache.get key ∧
      p'.manager.lastAccessTime.get key = p.manager.lastAccessTime.get key
  oldest : ∀ evicted ∈ p.manager.processorCache, evicted ∉ p'.manager.processorCache →
    ∀ key ∈ p'.manager.processorCache, ∃ t t',
      p.manager.lastAccessTime.get evicted = some t ∧
        p.manager.lastAccessTime.get key = some t' ∧ t ≤ t'

def EvictsOldest (cacheMaxSize : Int) (p : Pool τ) : Prop :=
  ∃ fuel p', p.evictionLoop cacheMaxSize fuel = some p' ∧ MakesRoom cacheMaxSize p p'

/-- The invariant of a run. -/
structure Orderly (n : Nat) (p : Pool τ) : Prop where
  counted : ∃ lost, Counted lost p
  bookkeeping : Bookkeeping n p.manager
  aged : Aged p.clock p.manager

theorem Orderly.step {n : Nat} {p p' : Pool τ} {a : PoolAction τ} (h : Orderly n p)
    (taken : (Pool.machine τ).step p a = some p') : Orderly n p' := by
  obtain ⟨lost, counted⟩ := h.counted
  have counted' : ∃ lost, Counted lost p' := by
    obtain ⟨kept, -⟩ | ⟨⟨path, more⟩, -⟩ := step_counted counted taken
    · exact ⟨lost, kept⟩
    · exact ⟨path :: lost, more⟩
  obtain ⟨later, q, step, rfl⟩ := Pool.step_cases taken
  have aged := h.aged.later later
  obtain same | ⟨b, timed, step⟩ := step.refines
  · exact ⟨counted', same ▸ h.bookkeeping, same ▸ aged⟩
  · refine ⟨counted', h.bookkeeping.step step, aged.step step counted.uncached fun now shown => ?_⟩
    rw [← timed, shown]
    rfl

theorem Orderly.initial (n idleTimeout : Nat) : Orderly n (Pool.initial τ n idleTimeout) :=
  ⟨⟨[], initial_counted τ n idleTimeout⟩, Bookkeeping.initial n idleTimeout,
    ⟨fun _ _ there => (nomatch there), List.Pairwise.nil⟩⟩

theorem Orderly.accessed {n : Nat} {p : Pool τ} (h : Orderly n p)
    (cached : key ∈ p.manager.processorCache) :
    ∃ t, p.manager.lastAccessTime.get key = some t :=
  Option.isSome_iff_exists.mp (AList.lookup_isSome.mpr ((h.bookkeeping.tracked key).mpr cached))

theorem Orderly.evictsOldest {cacheMaxSize : Int} {p : Pool τ} (positive : 1 ≤ cacheMaxSize)
    (h : Orderly cacheMaxSize.toNat p) : EvictsOldest cacheMaxSize p := by
  obtain ⟨lost, counted⟩ := h.counted
  have size := h.bookkeeping.maxSize
  have nonempty : 0 < p.manager.cacheMaxSize := by omega
  have same : (p.manager.cacheMaxSize : Int) = cacheMaxSize := by omega
  have ended := evictionLoop_eq nonempty (OrderedDict.size p.manager.processorCache) (Nat.le_refl _)
  rw [same] at ended
  have room := Bookkeeping.size_evictWhileFull nonempty _ (Nat.le_refl _)
  have newest := newest_evictWhileFull (OrderedDict.size p.manager.processorCache) p.manager
  rw [← Pool.manager_evictWhileFull] at room newest
  refine ⟨_, _, ended, (counted.evictWhileFull _).tracked.keyError, by omega, newest.kept, ?_⟩
  intro evicted there gone key stays
  obtain ⟨dropped, keys⟩ := newest.front
  have among : key ∈ p.manager.processorCache :=
    AList.mem_keys.mpr (newest.front.subset (AList.mem_keys.mp stays))
  have last : evicted ∈ dropped := by
    have mem := AList.mem_keys.mp there
    rw [← keys, List.mem_append] at mem
    exact mem.resolve_left fun mem => gone (AList.mem_keys.mpr mem)
  have order := h.aged.order
  rw [← keys, List.pairwise_append] at order
  obtain ⟨t, time⟩ := h.accessed there
  obtain ⟨t', time'⟩ := h.accessed among
  exact ⟨t, t', time, time', order.2.2 key (AList.mem_keys.mp stays) evicted last t' t time' time⟩

/-- In every state of every run the loop ends and makes room by dropping entries
that were accessed least recently, if and only if at least one is allowed. -/
theorem run_evictsOldest_iff (cacheMaxSize : Int) (idleTimeout : Nat) (as : List (PoolAction τ)) :
    (Pool.machine τ).Along (fun p => EvictsOldest cacheMaxSize p ↔ 1 ≤ cacheMaxSize)
      (Pool.initial τ cacheMaxSize.toNat idleTimeout) as := by
  refine (Machine.along_of_step (fun p a p' h taken => Orderly.step h taken)
    (Orderly.initial cacheMaxSize.toNat idleTimeout) as).mono fun p h =>
      ⟨?_, fun positive => h.evictsOldest positive⟩
  rintro ⟨fuel, p', ended, -⟩
  by_contra empty
  rw [evictionLoop_endless (by omega)] at ended
  cases ended

/-- The cache is empty when the first Processor is inserted, and never empty enough. -/
theorem eviction_endless :
    ¬∀ (cacheMaxSize : Int) (idleTimeout : Nat) (as : List (PoolAction Unit)),
    (Pool.machine Unit).Along (EvictsOldest cacheMaxSize)
      (Pool.initial Unit cacheMaxSize.toNat idleTimeout) as := by
  intro always
  have now : EvictsOldest 0 (Pool.initial Unit 0 0) := always 0 0 []
  obtain ⟨fuel, p', ended, -⟩ := now
  rw [evictionLoop_endless (Int.le_refl 0)] at ended
  cases ended

end TrajProxy.Manager
