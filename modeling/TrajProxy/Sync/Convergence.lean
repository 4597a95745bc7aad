import TrajProxy.Sync.Model

/-! Convergence of the memory to the table.
`Converging` says of every key that its entry is right or that work on it is
still to come: a queued notification, or a `register` the listener is busy
with. Every step keeps this but the application of a snapshot in which some
row is out of date and nothing is to come for its key. -/

namespace TrajProxy.Sync
open Manager Transition

/-- The listener will still bring the entry of `key` in line with the table. -/
def Owed (db : Registry) (key : Key) : Listener → Prop
  | .idle => False
  | .reading k => k = key
  | .read k row => k = key ∧ row.map ConfigRef.config = db.get key
  | .fallback k => k = key ∧ db.get key = none
  | .syncing k dbModels =>
    k = key ∧ db.get key = none ∧ findRow (dbModels.map ConfigRef.config) key = none

def Queued (s : System) (key : Key) : Prop := ∃ n ∈ s.channel, n.key = key

def Pending (s : System) (key : Key) : Prop := Queued s key ∨ Owed s.db key s.listener

structure Converging (s : System) : Prop where
  inSync : ∀ key, configured s.manager key = s.db.get key ∨ Pending s key
  /-- the last notification of a key tells whether the key has a row -/
  lastUnregister : ∀ pre key post, s.channel = pre ++ .unregister key :: post →
    (∀ n ∈ post, n.key ≠ key) → s.db.get key = none
  rowCurrent : ∀ key row, s.listener = .read key row →
    row.map ConfigRef.config = s.db.get key ∨ Queued s key
  rowKey : ∀ key ref, s.listener = .read key (some ref) → ref.key = key
  fallbackRows : ∀ key dbModels, s.listener = .syncing key dbModels →
    (dbModels.map ConfigRef.key).Nodup
  periodicRows : ∀ dbModels, s.periodic = some dbModels → (dbModels.map ConfigRef.key).Nodup

/-- Each row that is out of date belongs to a key with work to come. -/
def SnapshotCurrent (s : System) (dbModels : List ConfigRef) : Prop :=
  ∀ key, Same (findRow (dbModels.map ConfigRef.config) key) (s.db.get key) ∨ Pending s key

def Admitted (s : System) : Action → Prop
  | .applyFallback => ∀ key dbModels, s.listener = .syncing key dbModels →
      SnapshotCurrent s dbModels
  | .applyPeriodic => ∀ dbModels, s.periodic = some dbModels → SnapshotCurrent s dbModels
  | _ => True

/-- Every notification has been handled and no sync is in progress. -/
structure Quiescent (s : System) : Prop where
  delivered : s.channel = []
  handled : s.listener = .idle
  synced : s.periodic = none

def Converged (s : System) : Prop :=
  Quiescent s → ∀ key, configured s.manager key = s.db.get key

theorem Converging.converged {s : System} (h : Converging s) : Converged s := by
  intro quiet key
  cases h.inSync key with
  | inl right => exact right
  | inr pending =>
    cases pending with
    | inl queued =>
      obtain ⟨n, mem, -⟩ := queued
      rw [quiet.delivered] at mem
      cases mem
    | inr owed =>
      rw [quiet.handled] at owed
      exact owed.elim

@[simp] theorem getAll_config (db : Registry) (address : Nat) :
    (db.getAll address).map ConfigRef.config = db.rows := by
  refine List.ext_getElem (by simp [Registry.getAll]) fun i h h' => ?_
  simp [Registry.getAll]

theorem getAll_unique (db : Registry) (address : Nat) :
    ((db.getAll address).map ConfigRef.key).Nodup := by
  have keys : (db.getAll address).map ConfigRef.key = db.rows.map ModelConfig.key := by
    rw [← getAll_config db address, List.map_map]
    rfl
  exact keys ▸ db.unique

theorem Same.symm {entry row : Option ModelConfig} (h : Same entry row) : Same row entry := by
  cases entry with
  | none =>
    cases row with
    | none => trivial
    | some row => exact h.elim
  | some existing =>
    cases row with
    | none => exact h.elim
    | some row => exact SameFields.symm h

theorem Converging.started (db : Registry) (cacheMaxSize idleTimeout : Nat) :
    Converging (started db cacheMaxSize idleTimeout) where
  inSync key := by
    left
    simp only [Sync.started, configured_fullSync _ _ _ (getAll_unique db 0), getAll_config]
    have empty : configured (initial cacheMaxSize idleTimeout) key = none := by
      simp [configured, initial]
    rw [empty, Registry.get]
    cases findRow db.rows key <;> rfl
  lastUnregister pre key post h := by simp [Sync.started] at h
  rowCurrent key row h := by cases h
  rowKey key ref h := by cases h
  fallbackRows key dbModels h := by cases h
  periodicRows dbModels h := by cases h

namespace Converging

variable {s : System}

theorem queued_snoc {key : Key} (n : Notification) (db : Registry) (h : Queued s key) :
    Queued { s with db := db, channel := s.channel ++ [n] } key := by
  obtain ⟨m, mem, eq⟩ := h
  exact ⟨m, List.mem_append_left _ mem, eq⟩

/-- A change of one row with its notification. -/
theorem change (h : Converging s) (db : Registry) (n : Notification)
    (others : ∀ key, key ≠ n.key → db.get key = s.db.get key)
    (removed : ∀ key, n = .unregister key → db.get key = none) :
    Converging { s with db := db, channel := s.channel ++ [n] } where
  inSync key := by
    by_cases eq : key = n.key
    · exact .inr (.inl ⟨n, by simp, eq.symm⟩)
    · rw [others key eq]
      refine (h.inSync key).imp_right fun pending => ?_
      cases pending with
      | inl queued => exact .inl (queued_snoc n db queued)
      | inr owed =>
        right
        cases state : s.listener <;> simp only [state, Owed, others key eq] at owed ⊢ <;> exact owed
  lastUnregister pre key post split last := by
    cases List.eq_nil_or_concat post with
    | inl nil =>
      subst nil
      have ends := (List.append_inj' split rfl).2
      exact removed key (List.head_eq_of_cons_eq ends)
    | inr concat =>
      obtain ⟨post', m, rfl⟩ := concat
      rw [List.concat_eq_append, ← List.cons_append, ← List.append_assoc] at split
      obtain ⟨before, ends⟩ := List.append_inj' split rfl
      have final : n = m := List.head_eq_of_cons_eq ends
      have other : key ≠ n.key := fun eq => last m (by simp) (final ▸ eq.symm)
      rw [others key other]
      exact h.lastUnregister pre key post' before fun k mem =>
        last k (by rw [List.concat_eq_append]; exact List.mem_append_left _ mem)
  rowCurrent key row state := by
    by_cases eq : key = n.key
    · exact .inr ⟨n, by simp, eq.symm⟩
    · rw [others key eq]
      exact (h.rowCurrent key row state).imp_right (queued_snoc n db)
  rowKey := h.rowKey
  fallbackRows := h.fallbackRows
  periodicRows := h.periodicRows

theorem queued_rest {key : Key} {n : Notification} {rest : List Notification}
    (split : s.channel = n :: rest) (other : n.key ≠ key) (h : Queued s key) :
    ∃ m ∈ rest, m.key = key := by
  obtain ⟨m, mem, eq⟩ := h
  rw [split, List.mem_cons] at mem
  cases mem with
  | inl first => exact absurd (first ▸ eq) other
  | inr later => exact ⟨m, later, eq⟩

theorem lastUnregister_rest (h : Converging s) {n : Notification} {rest : List Notification}
    (split : s.channel = n :: rest) (pre : List Notification) (key : Key)
    (post : List Notification) (split' : rest = pre ++ .unregister key :: post)
    (last : ∀ m ∈ post, m.key ≠ key) : s.db.get key = none :=
  h.lastUnregister (n :: pre) key post (by rw [split, split']; rfl) last

theorem deliverRegister (h : Converging s) {key : Key} {rest : List Notification}
    (idle : s.listener = .idle) (split : s.channel = .register key :: rest) :
    Converging { s with channel := rest, listener := .reading key } where
  inSync key' := by
    by_cases eq : key = key'
    · exact .inr (.inr eq)
    · refine (h.inSync key').imp_right fun pending => ?_
      cases pending with
      | inl queued => exact .inl (queued_rest split eq queued)
      | inr owed =>
        rw [idle] at owed
        exact owed.elim
  lastUnregister := h.lastUnregister_rest split
  rowCurrent key' row state := by cases state
  rowKey key' ref state := by cases state
  fallbackRows key' dbModels state := by cases state
  periodicRows := h.periodicRows

theorem deliverUnregister (h : Converging s) {key : Key} {rest : List Notification}
    (idle : s.listener = .idle) (split : s.channel = .unregister key :: rest) :
    Converging { s with channel := rest, manager := s.manager.unregisterByKey key } where
  inSync key' := by
    rw [configured_unregisterByKey]
    by_cases eq : key' = key
    · subst eq
      rw [if_pos rfl]
      by_cases later : ∃ m ∈ rest, m.key = key'
      · exact .inr (.inl later)
      · left
        refine (h.lastUnregister [] key' rest split fun m mem same => ?_).symm
        exact later ⟨m, mem, same⟩
    · rw [if_neg eq]
      refine (h.inSync key').imp_right fun pending => ?_
      cases pending with
      | inl queued => exact .inl (queued_rest split (Ne.symm eq) queued)
      | inr owed =>
        rw [idle] at owed
        exact owed.elim
  lastUnregister := h.lastUnregister_rest split
  rowCurrent key' row state := by
    rw [idle] at state
    cases state
  rowKey key' ref state := by
    rw [idle] at state
    cases state
  fallbackRows key' dbModels state := by
    rw [idle] at state
    cases state
  periodicRows := h.periodicRows

theorem readRow (h : Converging s) {key : Key} (busy : s.listener = .reading key)
    (address : Nat) :
    Converging { s with
      listener := .read key ((s.db.get key).map fun config => ⟨address, config⟩) } where
  inSync key' := by
    refine (h.inSync key').imp_right fun pending => pending.imp_right fun owed => ?_
    rw [busy] at owed
    have same : key = key' := owed
    subst same
    refine ⟨rfl, ?_⟩
    simp [Option.map_map, Function.comp_def]
  lastUnregister := h.lastUnregister
  rowCurrent key' row state := by
    cases state
    left
    simp [Option.map_map, Function.comp_def]
  rowKey key' ref state := by
    simp only [Listener.read.injEq, Option.map_eq_some_iff] at state
    obtain ⟨rfl, config, row, rfl⟩ := state
    exact findRow_key row
  fallbackRows key' dbModels state := by cases state
  periodicRows := h.periodicRows

theorem applyRow (h : Converging s) {key : Key} {ref : ConfigRef}
    (busy : s.listener = .read key (some ref)) :
    Converging { s with manager := s.manager.registerFromConfig ref, listener := .idle } where
  inSync key' := by
    rw [configured_registerFromConfig, h.rowKey key ref busy]
    by_cases eq : key' = key
    · subst eq
      rw [if_pos rfl]
      exact (h.rowCurrent key' _ busy).imp_right .inl
    · rw [if_neg eq]
      refine (h.inSync key').imp_right fun pending => pending.imp_right fun owed => ?_
      rw [busy] at owed
      exact absurd owed.1.symm eq
  lastUnregister := h.lastUnregister
  rowCurrent key' row state := by cases state
  rowKey key' ref' state := by cases state
  fallbackRows key' dbModels state := by cases state
  periodicRows := h.periodicRows

theorem rowMissing (h : Converging s) {key : Key} (busy : s.listener = .read key none) :
    Converging { s with listener := .fallback key } where
  inSync key' := by
    refine (h.inSync key').imp_right fun pending => pending.imp_right fun owed => ?_
    rw [busy] at owed
    exact ⟨owed.1, owed.2.symm⟩
  lastUnregister := h.lastUnregister
  rowCurrent key' row state := by cases state
  rowKey key' ref state := by cases state
  fallbackRows key' dbModels state := by cases state
  periodicRows := h.periodicRows

theorem readFallback (h : Converging s) {key : Key} (busy : s.listener = .fallback key)
    (address : Nat) :
    Converging { s with listener := .syncing key (s.db.getAll address) } where
  inSync key' := by
    refine (h.inSync key').imp_right fun pending => pending.imp_right fun owed => ?_
    rw [busy] at owed
    refine ⟨owed.1, owed.2, ?_⟩
    rw [getAll_config]
    exact owed.2
  lastUnregister := h.lastUnregister
  rowCurrent key' row state := by cases state
  rowKey key' ref state := by cases state
  fallbackRows key' dbModels state := by
    cases state
    exact getAll_unique s.db address
  periodicRows := h.periodicRows

theorem readPeriodic (h : Converging s) (address : Nat) :
    Converging { s with periodic := some (s.db.getAll address) } where
  inSync := h.inSync
  lastUnregister := h.lastUnregister
  rowCurrent := h.rowCurrent
  rowKey := h.rowKey
  fallbackRows := h.fallbackRows
  periodicRows dbModels state := by
    cases state
    exact getAll_unique s.db address

/-- The entry of a key after a snapshot with a current row for it. -/
theorem merged_right {key : Key} {row : Option ModelConfig} (same : Same row (s.db.get key))
    (right : configured s.manager key = s.db.get key) :
    merge (configured s.manager key) row = s.db.get key := by
  rw [right]
  exact merge_of_same same

theorem merged_wrong {key : Key} {row : Option ModelConfig} (stale : ¬Same row (s.db.get key)) :
    merge (configured s.manager key) row ≠ s.db.get key := by
  intro eq
  have same := merge_same (configured s.manager key) row
  rw [eq] at same
  exact stale same.symm

theorem applyPeriodic_iff (h : Converging s) {dbModels : List ConfigRef}
    (taken : s.periodic = some dbModels) :
    Converging { s with manager := s.manager.fullSync dbModels, periodic := none } ↔
      SnapshotCurrent s dbModels := by
  have merged := fun key =>
    configured_fullSync s.manager dbModels key (h.periodicRows dbModels taken)
  refine ⟨?_, ?_⟩
  · intro after key
    by_contra bad
    rw [not_or] at bad
    have entry := after.inSync key
    simp only [merged] at entry
    exact entry.elim (merged_wrong bad.1) bad.2
  · intro current
    refine ⟨fun key => ?_, h.lastUnregister, h.rowCurrent, h.rowKey, h.fallbackRows,
      fun dbModels state => nomatch state⟩
    simp only [merged]
    cases current key with
    | inr pending => exact .inr pending
    | inl same => exact (h.inSync key).imp_left (merged_right same)

/-- Once the snapshot of a fallback is applied nothing is owed any more. -/
theorem applyFallback_iff (h : Converging s) {owed : Key} {dbModels : List ConfigRef}
    (busy : s.listener = .syncing owed dbModels) :
    Converging { s with manager := s.manager.fullSync dbModels, listener := .idle } ↔
      SnapshotCurrent s dbModels := by
  have merged := fun key =>
    configured_fullSync s.manager dbModels key (h.fallbackRows owed dbModels busy)
  refine ⟨?_, ?_⟩
  · intro after key
    by_contra bad
    rw [not_or] at bad
    have entry := after.inSync key
    simp only [merged] at entry
    refine entry.elim (merged_wrong bad.1) fun pending => ?_
    cases pending with
    | inl queued => exact bad.2 (.inl queued)
    | inr owed => exact owed.elim
  · intro current
    refine ⟨fun key => ?_, h.lastUnregister, (fun key row state => nomatch state),
      (fun key ref state => nomatch state), (fun key dbModels state => nomatch state),
      h.periodicRows⟩
    simp only [merged]
    have settled : s.db.get key = none →
        findRow (dbModels.map ConfigRef.config) key = none →
        merge (configured s.manager key) (findRow (dbModels.map ConfigRef.config) key) =
          s.db.get key := by
      intro gone absent
      rw [gone, absent, merge]
    cases current key with
    | inr pending =>
      cases pending with
      | inl queued => exact .inr (.inl queued)
      | inr owes =>
        rw [busy] at owes
        exact .inl (settled owes.2.1 owes.2.2)
    | inl same =>
      cases h.inSync key with
      | inl right => exact .inl (merged_right same right)
      | inr pending =>
        cases pending with
        | inl queued => exact .inr (.inl queued)
        | inr owes =>
          rw [busy] at owes
          exact .inl (settled owes.2.1 owes.2.2)

end Converging

/-- A step keeps the invariant exactly when it applies no outdated snapshot. -/
theorem step_converging_iff (s : System) (a : Action) (s' : System) (h : Converging s)
    (taken : machine.step s a = some s') : Converging s' ↔ Admitted s a := by
  change step s a = some s' at taken
  cases a with
  | dbRegister config =>
    rw [step, Option.some_inj] at taken
    subst taken
    refine iff_of_true (h.change _ _ (fun key other => ?_) fun key eq => by cases eq) trivial
    rw [Registry.get_upsert]
    exact if_neg other
  | dbUnregister key =>
    rw [step] at taken
    split at taken
    · rw [Option.some_inj] at taken
      subst taken
      refine iff_of_true (h.change _ _ (fun key' other => ?_) fun key' eq => ?_) trivial
      · rw [Registry.get_delete]
        exact if_neg other
      · cases eq
        rw [Registry.get_delete, if_pos rfl]
    · rw [Option.some_inj] at taken
      exact iff_of_true (taken ▸ h) trivial
  | deliver =>
    rw [step] at taken
    split at taken
    · rename_i key rest idle split
      rw [Option.some_inj] at taken
      exact iff_of_true (taken ▸ h.deliverRegister idle split) trivial
    · rename_i key rest idle split
      rw [Option.some_inj] at taken
      exact iff_of_true (taken ▸ h.deliverUnregister idle split) trivial
    · cases taken
  | readRow address =>
    rw [step] at taken
    split at taken
    · rename_i key busy
      rw [Option.some_inj] at taken
      exact iff_of_true (taken ▸ h.readRow busy address) trivial
    · cases taken
  | applyRow =>
    rw [step] at taken
    split at taken
    · rename_i key config busy
      rw [Option.some_inj] at taken
      exact iff_of_true (taken ▸ h.applyRow busy) trivial
    · rename_i key busy
      rw [Option.some_inj] at taken
      exact iff_of_true (taken ▸ h.rowMissing busy) trivial
    · cases taken
  | readFallback address =>
    rw [step] at taken
    split at taken
    · rename_i key busy
      rw [Option.some_inj] at taken
      exact iff_of_true (taken ▸ h.readFallback busy address) trivial
    · cases taken
  | applyFallback =>
    rw [step] at taken
    split at taken
    · rename_i key dbModels busy
      rw [Option.some_inj] at taken
      rw [← taken, h.applyFallback_iff busy, Admitted]
      simp [busy]
    · cases taken
  | readPeriodic address =>
    rw [step] at taken
    split at taken
    · rw [Option.some_inj] at taken
      exact iff_of_true (taken ▸ h.readPeriodic address) trivial
    · cases taken
  | applyPeriodic =>
    rw [step] at taken
    split at taken
    · rename_i dbModels state
      rw [Option.some_inj] at taken
      rw [← taken, h.applyPeriodic_iff state, Admitted]
      simp [state]
    · cases taken

/-- In a run that applies no outdated snapshot the memory equals the table
whenever nothing is under way. -/
theorem run_converged (db : Registry) (cacheMaxSize idleTimeout : Nat) (as : List Action)
    (h : machine.Guarded Admitted (started db cacheMaxSize idleTimeout) as) :
    machine.Along Converged (started db cacheMaxSize idleTimeout) as := by
  have start := Converging.started db cacheMaxSize idleTimeout
  have converging := (Machine.along_iff_guarded step_converging_iff start as).mpr h
  exact converging.mono fun s => Converging.converged

/-- A registration between the two halves of a periodic sync. -/
private def raced (config : ModelConfig) : List Action :=
  [.readPeriodic 0, .dbRegister config, .deliver, .readRow 0, .applyRow, .applyPeriodic]

private def someModel : ModelConfig :=
  { url := "http://infer", apiKey := "key", tokenizerPath := none, runId := "DEFAULT"
    modelName := "m", tokenInTokenOut := false, toolParser := "", reasoningParser := ""
    updatedAt := none }

/-- The same steps with the sync applied while the notification is queued. -/
theorem run_converged_queued :
    machine.Along Converged (started Registry.empty 32 300)
      [.readPeriodic 0, .dbRegister someModel, .applyPeriodic, .deliver, .readRow 0,
        .applyRow] := by
  refine run_converged Registry.empty 32 300 _ ?_
  intro s₁ read
  refine ⟨trivial, fun s₂ registered => ⟨trivial, fun s₃ applied => ⟨?_, fun _ _ => ⟨trivial,
    fun _ _ => ⟨trivial, fun _ _ => ⟨trivial, trivial⟩⟩⟩⟩⟩⟩
  cases read
  cases registered
  intro dbModels snapshot
  cases snapshot
  intro key
  by_cases eq : someModel.key = key
  · exact .inr (.inl ⟨.register someModel.key, List.mem_singleton_self _, eq⟩)
  · left
    rw [Registry.get_upsert, if_neg (Ne.symm eq)]
    trivial

/-- The registration is lost: nothing is under way and the memory is empty. -/
theorem registration_lost :
    ¬∀ (db : Registry) (cacheMaxSize idleTimeout : Nat) (as : List Action),
      machine.Along Converged (started db cacheMaxSize idleTimeout) as := by
  intro all
  obtain ⟨s, ran, quiet, lost, kept⟩ : ∃ s,
      machine.exec (started Registry.empty 32 300) (raced someModel) = some s ∧ Quiescent s ∧
      configured s.manager someModel.key = none ∧ s.db.get someModel.key = some someModel :=
    ⟨_, rfl, ⟨rfl, rfl, rfl⟩, rfl, rfl⟩
  have same := (all Registry.empty 32 300 (raced someModel)).exec ran quiet someModel.key
  rw [lost, kept] at same
  cases same

end TrajProxy.Sync
